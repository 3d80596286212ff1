import Mathlib.Data.List.TakeWhile
import TagLoom.Proofs.Bytes.Utf8
import TagLoom.Proofs.Expr.Names
import TagLoom.Template.Name

/-!
# Words as expressions

A name that occurs in an expression is a run of letters, digits, underscores and dollar signs.  Read
as an expression of its own it is that name, or no name at all.
-/

namespace TagLoom

theorem Bytes.mem_dedup {t : Bytes} {texts : List Bytes} : t ∈ Bytes.dedup texts ↔ t ∈ texts := by
  have hfold (seen : List Bytes) :
      t ∈ texts.foldl (fun seen t => if seen.contains t then seen else seen ++ [t]) seen ↔
        t ∈ seen ∨ t ∈ texts := by
    induction texts generalizing seen with
    | nil => simp
    | cons u texts ih =>
        rw [List.foldl_cons, ih]
        by_cases hu : u ∈ seen
        · simp only [List.contains_iff_mem.2 hu, if_true, List.mem_cons]
          grind
        · simp [hu, or_assoc]
  rw [Bytes.dedup, hfold]
  simp

namespace Utf8

/-! ## Characters that are read again -/

theorem decode_take (c : UInt8) (rest more : Bytes)
    (h : (decode (c :: rest)).1 ≠ replacement) :
    decode (c :: (rest.take ((decode (c :: rest)).2 - 1) ++ more)) = decode (c :: rest) := by
  obtain ⟨-, hbad⟩ | ⟨s, tail, r, hs, hsplit⟩ := decode_cases c rest
  · exact absurd (by rw [hbad]) h
  · obtain ⟨d, s, rfl⟩ := List.exists_cons_of_ne_nil hs.ne_nil
    rw [List.cons_append, List.cons.injEq] at hsplit
    obtain ⟨rfl, rfl⟩ := hsplit
    have hwhole := hs.decode_append tail
    have hagain := hs.decode_append more
    rw [List.cons_append] at hwhole hagain
    rw [hwhole, List.length_cons, Nat.add_sub_cancel, List.take_left, hagain, List.length_cons]

/-- A character that stands the same before any text. -/
def Cell.Stands (c : Cell) : Prop := ∀ more, cells (c.spelled ++ more) = c :: cells more

theorem cells_stand (s : Bytes) : ∀ c ∈ cells s, c.rune ≠ replacement → c.Stands := by
  induction hlen : s.length using Nat.strongRecOn generalizing s with
  | _ n ih =>
      cases s with
      | nil => simp
      | cons b rest =>
          rw [cells_cons, List.forall_mem_cons]
          refine ⟨fun hrune more => ?_, ih _ ?_ _ rfl⟩
          · have htake : (rest.take ((decode (b :: rest)).2 - 1)).length =
                (decode (b :: rest)).2 - 1 :=
              List.length_take_of_le (decode_length_le b rest)
            rw [List.cons_append, cells_cons, decode_take b rest more hrune,
              List.take_left' htake, List.drop_left' htake]
          · rw [← hlen]
            simp only [List.length_drop, List.length_cons]
            omega

theorem cells_ascii {s : Bytes} (h : ∀ c ∈ s, c < 0x80) :
    cells s = s.map fun c => ⟨c.toNat, [c]⟩ := by
  induction s with
  | nil => simp
  | cons c s ih =>
      have hc := decode_ascii s (h c (by simp))
      simp [cells_cons, hc, ih fun d hd => h d (by simp [hd])]

end Utf8

namespace Expr

open Utf8 (Cell Rune cells)

/-! ## Spellings -/

@[simp] theorem spelling_nil : spelling [] = [] := rfl

@[simp] theorem spelling_cons (c : Cell) (cs : List Cell) :
    spelling (c :: cs) = c.spelled ++ spelling cs := rfl

theorem spelling_cells (s : Bytes) : spelling (cells s) = s := by
  induction hlen : s.length using Nat.strongRecOn generalizing s with
  | _ n ih =>
      cases s with
      | nil => simp
      | cons b rest =>
          rw [Utf8.cells_cons, spelling_cons, ih _ ?_ _ rfl]
          · simp
          · rw [← hlen]
            simp only [List.length_drop, List.length_cons]
            omega

theorem cells_spelling {cs : List Cell} (h : ∀ c ∈ cs, c.Stands) : cells (spelling cs) = cs := by
  induction cs with
  | nil => simp
  | cons c cs ih =>
      rw [spelling_cons, h c (by simp), ih fun d hd => h d (by simp [hd])]

/-! ## Characters of words -/

/-- A text of one or more word characters. -/
structure IsWord (s : Bytes) : Prop where
  nonempty : s ≠ []
  cells : ∀ c ∈ cells s, isWordCell c = true

/-- No rune that ends a word is one of a word: neither the spaces, nor the marks, nor the stand-in
for what is no character. -/
private theorem isWordRune_ends :
    (∀ k ∈ ([0x85, 0xA0, 0x1680, 0x2028, 0x2029, 0x202F, 0x205F, 0x3000] : List Nat),
        isWordRune k = false) ∧
      (∀ k < (0x21 : Nat), isWordRune k = false) ∧
      (∀ k < (0x0B : Nat), isWordRune (0x2000 + k) = false) ∧
      isWordRune Utf8.replacement = false ∧
      ∀ set ∈ (["'\"", "([\x7b)]\x7d", ",;%+-^", "&!=*<>", "."] : List Bytes), ∀ b ∈ set,
        isWordRune b.toNat = false := by
  decide +kernel

theorem ne_of_word {r k : Rune} (h : isWordRune r = true) (hk : isWordRune k = false) :
    (r == k) = false := by
  refine beq_eq_false_iff_ne.2 fun he => ?_
  rw [he, hk] at h
  cases h

theorem oneOf_of_word {c : Cell} (h : isWordCell c = true) {set : Bytes}
    (hset : ∀ b ∈ set, isWordRune b.toNat = false) : oneOf set c = false := by
  rw [oneOf, Bool.and_eq_false_iff, decide_eq_false_iff_not]
  by_cases hascii : c.rune < 0x80
  · refine Or.inr (Bool.eq_false_iff.2 fun hin => ?_)
    have hrune := hset _ (List.contains_iff_mem.1 hin)
    have hsame : c.rune.toUInt8.toNat = c.rune :=
      (UInt8.toNat_ofNat').trans (Nat.mod_eq_of_lt (Nat.lt_trans hascii (by decide)))
    rw [hsame] at hrune
    exact absurd h (by simp [isWordCell, hrune])
  · exact Or.inl hascii

theorem isSpace_of_word {r : Nat} (h : isWordRune r = true) : Unicode.isSpace r = false := by
  obtain ⟨hspaces, hlow, hwide, -⟩ := isWordRune_ends
  refine Bool.eq_false_iff.2 fun hs => ?_
  have hr : isWordRune r = false := by
    simp only [Unicode.isSpace, Bool.or_eq_true, Bool.and_eq_true, decide_eq_true_eq,
      beq_iff_eq] at hs
    by_cases hsmall : r < 0x21
    · exact hlow r hsmall
    by_cases hmid : 0x2000 ≤ r ∧ r ≤ 0x200A
    · have hword := hwide (r - 0x2000) (by omega)
      rwa [Nat.add_sub_of_le hmid.1] at hword
    · apply hspaces
      simp only [List.mem_cons, List.not_mem_nil, or_false]
      grind
  rw [hr] at h
  cases h

/-! ## Words as tokens -/

theorem lexeme_word {c : Cell} (h : isWordCell c = true) (hdigit : oneOf "0123456789" c = false)
    (rest : List Cell) :
    lexeme c rest = wordToken
      (if wordOperators.contains (spelling ((c :: rest).takeWhile isWordCell)) then .operator
        else .name)
      (c :: rest) ((c :: rest).takeWhile isWordCell).length := by
  obtain ⟨-, -, -, -, hmarks⟩ := isWordRune_ends
  have hquote : oneOf "'\"" c = false := oneOf_of_word h (hmarks _ (by simp))
  have hbracket : oneOf "([\x7b)]\x7d" c = false := oneOf_of_word h (hmarks _ (by simp))
  have hmark : oneOf ",;%+-^" c = false := oneOf_of_word h (hmarks _ (by simp))
  have hpair : oneOf "&!=*<>" c = false := oneOf_of_word h (hmarks _ (by simp))
  have hspace : Unicode.isSpace c.rune = false := isSpace_of_word h
  have hne (k : Rune) (hk : isWordRune k = false) : (c.rune == k) = false := ne_of_word h hk
  simp only [lexeme, hspace, hquote, hdigit, hbracket, hmark, hpair, h,
    hne 0x60 (by decide), hne 0x3F (by decide), hne 0x2F (by decide), hne 0x23 (by decide),
    hne 0x7C (by decide), hne 0x3A (by decide), hne 0x2E (by decide), Bool.false_eq_true, if_false,
    if_true]

theorem lexeme_digit {c : Cell} (h : isWordCell c = true) (hdigit : oneOf "0123456789" c = true)
    (rest : List Cell) :
    lexeme c rest =
      match numberLength (c :: rest) with
      | .error e => .error e
      | .ok n => wordToken .number (c :: rest) n := by
  obtain ⟨-, -, -, -, hmarks⟩ := isWordRune_ends
  have hquote : oneOf "'\"" c = false := oneOf_of_word h (hmarks _ (by simp))
  have hspace : Unicode.isSpace c.rune = false := isSpace_of_word h
  have htick : (c.rune == 0x60) = false := ne_of_word h (by decide)
  cases hn : numberLength (c :: rest) <;>
    simp only [lexeme, hspace, hquote, hdigit, htick, hn, Bool.false_eq_true, if_false, if_true]

theorem numberLength_end {cs : List Cell} {n : Nat} (h : numberLength cs = .ok n)
    (hcs : ∀ c ∈ cs, isWordCell c = true) : cs.drop n = [] := by
  obtain ⟨-, -, -, -, hmarks⟩ := isWordRune_ends
  have hdot (m : Nat) : (((cs.drop m).head?).map (oneOf ".")).getD false = false := by
    cases hd : cs.drop m with
    | nil => rfl
    | cons c rest =>
        have hc : c ∈ cs := List.mem_of_mem_drop (hd ▸ List.mem_cons_self)
        exact oneOf_of_word (hcs c hc) (hmarks _ (by simp))
  have hword (m : Nat) (hm : (((cs.drop m).head?).map isWordCell).getD false = false) :
      cs.drop m = [] := by
    cases hd : cs.drop m with
    | nil => rfl
    | cons c rest =>
        have hc : c ∈ cs := List.mem_of_mem_drop (hd ▸ List.mem_cons_self)
        rw [hd] at hm
        exact absurd (hcs c hc) (by simpa using hm)
  have hok {b : Bool} {m : Nat} {e : LexError}
      (h : (if b = true then .error e else .ok m : Except LexError Nat) = .ok n) :
      b = false ∧ m = n := by
    cases b with
    | true => cases h
    | false => exact ⟨rfl, Except.ok.inj h⟩
  unfold numberLength at h
  extract_lets second zero is at h
  split at h
  rename_i start digits hpair
  simp only [hdot, Bool.false_and, Bool.false_eq_true, if_false] at h
  obtain ⟨hend, rfl⟩ := hok h
  exact hword _ hend

/-- A name among the tokens is spelled by a run of word characters. -/
def Lexeme.NamesAre (cs : List Cell) : Lexeme → Prop
  | .tokens ts _ => ∀ t ∈ ts, t.1 = .name → ∃ word, word ≠ [] ∧ t.2.1 = spelling word ∧
      ∀ c ∈ word, c ∈ cs ∧ isWordCell c = true
  | _ => True

private theorem namesAre_ite {cs : List Cell} {b : Bool} {x y : Lexeme}
    (hx : b = true → x.NamesAre cs) (hy : y.NamesAre cs) :
    (if b = true then x else y).NamesAre cs := by
  cases b with
  | true => exact hx rfl
  | false => exact hy

private theorem namesAre_other {cs : List Cell} {kind : TokenKind} (hkind : kind ≠ .name)
    (value : Bytes) (shift more : Nat) : (Lexeme.tokens [(kind, value, shift)] more).NamesAre cs := by
  intro t ht hname
  rw [List.mem_singleton.1 ht] at hname
  exact absurd hname hkind

private theorem namesAre_word {cs : List Cell} {kind : TokenKind} (hkind : kind ≠ .name) (n : Nat) :
    (wordToken kind cs n).NamesAre cs :=
  namesAre_other hkind _ _ _

theorem takeWhile_words (cs : List Cell) :
    ∀ c ∈ cs.takeWhile isWordCell, c ∈ cs ∧ isWordCell c = true := fun c hc =>
  ⟨(List.takeWhile_sublist _).subset hc, List.all_eq_true.1 List.all_takeWhile c hc⟩

theorem lexeme_names (c : Cell) (rest : List Cell) : (lexeme c rest).NamesAre (c :: rest) := by
  have hoperator (n : Nat) : (wordToken .operator (c :: rest) n).NamesAre (c :: rest) :=
    namesAre_word (by decide) n
  have hnumber (n : Nat) : (wordToken .number (c :: rest) n).NamesAre (c :: rest) :=
    namesAre_word (by decide) n
  have hbracket (n : Nat) : (wordToken .bracket (c :: rest) n).NamesAre (c :: rest) :=
    namesAre_word (by decide) n
  have htext (value : Bytes) (n : Nat) :
      (Lexeme.tokens [(.text, value, 0)] n).NamesAre (c :: rest) :=
    namesAre_other (by decide) value 0 n
  unfold lexeme
  refine namesAre_ite (fun _ => trivial) (namesAre_ite (fun _ => ?_) (namesAre_ite (fun _ => ?_)
    (namesAre_ite (fun _ => ?_) (namesAre_ite (fun _ => hoperator _)
    (namesAre_ite (fun _ => ?_) (namesAre_ite (fun _ => ?_) (namesAre_ite (fun _ => hoperator _)
    (namesAre_ite (fun _ => hoperator _) (namesAre_ite (fun _ => hbracket _)
    (namesAre_ite (fun _ => hoperator _) (namesAre_ite (fun _ => hoperator _)
    (namesAre_ite (fun _ => ?_) (namesAre_ite (fun hc => ?_) trivial)))))))))))))
  · split
    · trivial
    · split
      · trivial
      · exact htext _ _
  · split
    · trivial
    · exact htext _ _
  · split
    · trivial
    · exact hnumber _
  · refine namesAre_ite (fun _ => trivial) (namesAre_ite (fun _ => ?_) (hoperator _))
    split
    · trivial
    · trivial
  · generalize (if follows "#" rest then 2 else 1) = n
    intro t ht hname
    rcases List.mem_cons.1 ht with rfl | ht
    · cases hname
    · split at ht
      · cases ht
      · rename_i hword
        rw [List.mem_singleton.1 ht]
        refine ⟨_, fun h => hword (by simp [h]), rfl, fun d hd => ?_⟩
        have hd := takeWhile_words _ d hd
        exact ⟨List.mem_of_mem_drop hd.1, hd.2⟩
  · refine namesAre_ite (fun _ => ?_) (hoperator _)
    split
    · trivial
    · trivial
    · exact hnumber _
  · intro t ht _
    rw [List.mem_singleton.1 ht]
    refine ⟨(c :: rest).takeWhile isWordCell, by simp [hc], ?_, takeWhile_words _⟩
    exact congrArg spelling (List.prefix_iff_eq_take.1 (List.takeWhile_prefix _)).symm

/-! ## Names of a source -/

theorem lexCells_nil (start : Nat) : lexCells [] start = ([⟨.eof, [], start - 1⟩], none) := by
  unfold lexCells
  rfl

theorem lexCells_cons (c : Cell) (rest : List Cell) (start : Nat) :
    lexCells (c :: rest) start =
      match lexeme c rest with
      | .skip more => lexCells (rest.drop more) (start + more + 1)
      | .error e => ([], some e)
      | .tokens ts more =>
          let (after, e) := lexCells (rest.drop more) (start + more + 1)
          (ts.map (fun (kind, value, shift) => ⟨kind, value, start + shift⟩) ++ after, e) :=
  (lexCells.eq_def (c :: rest) start).trans rfl

theorem lexCells_names (cs : List Cell) (start : Nat) :
    ∀ t ∈ (lexCells cs start).1, t.kind = .name → ∃ word, word ≠ [] ∧ t.value = spelling word ∧
      ∀ c ∈ word, c ∈ cs ∧ isWordCell c = true := by
  induction hlen : cs.length using Nat.strongRecOn generalizing cs start with
  | _ n ih =>
      cases cs with
      | nil =>
          rw [lexCells_nil]
          intro t ht hname
          rw [List.mem_singleton.1 ht] at hname
          cases hname
      | cons c rest =>
          have hshort (more : Nat) : (rest.drop more).length < n := by
            rw [← hlen]
            simp only [List.length_drop, List.length_cons]
            omega
          have hrest (more : Nat) : ∀ t ∈ (lexCells (rest.drop more) (start + more + 1)).1,
              t.kind = .name → ∃ word, word ≠ [] ∧ t.value = spelling word ∧
                ∀ d ∈ word, d ∈ c :: rest ∧ isWordCell d = true := by
            intro t ht hname
            obtain ⟨word, hne, hvalue, hword⟩ := ih _ (hshort more) _ _ rfl t ht hname
            exact ⟨word, hne, hvalue, fun d hd =>
              ⟨List.mem_cons_of_mem _ (List.mem_of_mem_drop (hword d hd).1), (hword d hd).2⟩⟩
          have hnames := lexeme_names c rest
          rw [lexCells_cons]
          cases hlex : lexeme c rest with
          | skip more => exact hrest more
          | error e => simp
          | tokens ts more =>
              rw [hlex] at hnames
              refine List.forall_mem_append.2 ⟨?_, hrest more⟩
              intro t ht hname
              obtain ⟨⟨kind, value, shift⟩, hmem, rfl⟩ := List.mem_map.1 ht
              exact hnames _ hmem hname

theorem isWord_spelling {source : Bytes} {word : List Cell} (hne : word ≠ [])
    (hword : ∀ c ∈ word, c ∈ cells source ∧ isWordCell c = true) : IsWord (spelling word) := by
  obtain ⟨-, -, -, hreplacement, -⟩ := isWordRune_ends
  have hstands : ∀ c ∈ word, c.Stands := by
    intro c hc
    refine Utf8.cells_stand source c (hword c hc).1 fun hr => ?_
    have hrune : isWordRune c.rune = true := (hword c hc).2
    rw [hr, hreplacement] at hrune
    cases hrune
  have hcells := cells_spelling hstands
  refine ⟨fun h => hne ?_, ?_⟩
  · rw [← hcells, h, Utf8.cells_nil]
  · rw [hcells]
    exact fun c hc => (hword c hc).2

theorem lex_word {s : Bytes} (hs : IsWord s) : ∀ t ∈ (lex s).1, t.kind = .name → t.value = s := by
  have hend (start : Nat) : ∀ t ∈ (lexCells [] start).1, t.kind = .name → t.value = s := by
    rw [lexCells_nil]
    intro t ht hname
    rw [List.mem_singleton.1 ht] at hname
    cases hname
  have hspelling := spelling_cells s
  rw [lex]
  cases hcs : cells s with
  | nil => exact hend 0
  | cons c rest =>
      have hcells := hs.cells
      rw [hcs] at hcells hspelling
      have hc := hcells c (by simp)
      rw [lexCells_cons]
      cases hdigit : oneOf "0123456789" c with
      | true =>
          rw [lexeme_digit hc hdigit]
          cases hn : numberLength (c :: rest) with
          | error e => simp
          | ok n =>
              have hdrop : rest.drop (n - 1) = [] := by
                have hempty := numberLength_end hn hcells
                cases n with
                | zero => cases hempty
                | succ n => exact hempty
              simp only [wordToken, hdrop]
              exact List.forall_mem_cons.2 ⟨by simp, hend _⟩
      | false =>
          have hall : (c :: rest).takeWhile isWordCell = c :: rest :=
            List.takeWhile_eq_self_iff.2 hcells
          have hdrop : rest.drop ((c :: rest).length - 1) = [] :=
            List.drop_eq_nil_of_le (by simp)
          rw [lexeme_word hc hdigit, hall]
          simp only [wordToken, hdrop, List.take_length, hspelling]
          exact List.forall_mem_cons.2 ⟨fun _ => rfl, hend _⟩

/-- What names of templates and of expressions are like. -/
structure IsFree (s : Bytes) : Prop where
  word : IsWord s
  plain : Bytes.startsWith s "$" = false

theorem isFree_of_isIdent {n : Bytes} (h : Name.isIdent n = true) : IsFree n := by
  have hbytes : ∀ n < 256, (Name.isStart n.toUInt8 || Bytes.isDigit n.toUInt8) = true →
      n < 0x80 ∧ isWordRune n = true := by
    decide +kernel
  have hbyte (c : UInt8) (hc : (Name.isStart c || Bytes.isDigit c) = true) :
      c < 0x80 ∧ isWordRune c.toNat = true :=
    hbytes c.toNat c.toNat_lt (by simpa using hc)
  cases n with
  | nil => cases h
  | cons c rest =>
      simp only [Name.isIdent, Bool.and_eq_true, List.all_eq_true] at h
      have hall : ∀ d ∈ c :: rest, d < 0x80 ∧ isWordRune d.toNat = true :=
        List.forall_mem_cons.2 ⟨hbyte c (by simp [h.1]), fun d hd => hbyte d (h.2 d hd)⟩
      refine ⟨⟨by simp, ?_⟩, ?_⟩
      · rw [Utf8.cells_ascii fun d hd => (hall d hd).1]
        intro cell hcell
        obtain ⟨d, hd, rfl⟩ := List.mem_map.1 hcell
        exact (hall d hd).2
      · refine Bool.eq_false_iff.2 fun hdollar => ?_
        have hmark : Bytes.ofString "$" = ['$'.toUInt8] := by decide
        rw [hmark] at hdollar
        have hc : '$'.toUInt8 = c := by
          simpa [Bytes.startsWith] using hdollar
        rw [← hc] at h
        exact absurd h.1 (by decide)

theorem isFree_of_parse {source : Bytes} {e : Expr} (h : parse source = .ok e) :
    ∀ n ∈ e.freeNames, IsFree n := by
  have hword : Named IsWord e := by
    refine named_of_parse h fun t ht hname => ?_
    obtain ⟨word, hne, hvalue, hcells⟩ := lexCells_names _ _ t ht hname
    rw [hvalue]
    exact isWord_spelling hne hcells
  intro n hn
  have hmem := Bytes.mem_dedup.1 hn
  obtain ⟨hn, hplain⟩ := named_occurrences [] e hword n hmem
  exact ⟨hn, hplain⟩

end Expr

end TagLoom

/-!
## Bare expressions and their sources

An expression that is one name may be written with brackets, comments or a semicolon around the
name.  Its source is the name itself exactly when the source is one word.
-/

namespace TagLoom.Expression

open TagLoom.Expr (IsWord IsFree)

theorem parse_eq_ok {source : Bytes} {e : Expression} (h : parse source = .ok e) :
    Expr.parse e.source = .ok e.tree := by
  unfold parse ofSource at h
  cases hp : Expr.parse (Unicode.trim source) with
  | error err =>
      rw [hp] at h
      cases h
  | ok tree =>
      rw [hp] at h
      cases h
      exact hp

theorem source_of_parse {source : Bytes} {e : Expression} (h : parse source = .ok e) :
    e.source = Unicode.trim source := by
  unfold parse ofSource at h
  cases hp : Expr.parse (Unicode.trim source) with
  | error err =>
      rw [hp] at h
      cases h
  | ok tree =>
      rw [hp] at h
      cases h
      rfl

theorem exists_name_of_isBare {e : Expression} (h : e.isBare = true) :
    ∃ pos n, e.tree = .name pos n := by
  unfold isBare at h
  split at h
  · rename_i pos n htree
    exact ⟨pos, n, htree⟩
  · cases h

theorem eq_of_mem_names {e : Expression} {pos : Nat} {n m : Bytes} (h : e.tree = .name pos n)
    (hm : m ∈ e.names) : m = n := by
  rw [names, h, Expr.freeNames, Bytes.mem_dedup, Expr.occurrences] at hm
  split at hm
  · cases hm
  · exact List.mem_singleton.1 hm

theorem names_of_name {e : Expression} {pos : Nat} {n : Bytes} (h : e.tree = .name pos n)
    (hn : Bytes.startsWith n "$" = false) : e.names = [n] := by
  simp [names, h, Expr.freeNames, Expr.occurrences, hn, Bytes.dedup]

theorem source_eq_of_isWord {source : Bytes} {e : Expression} (h : parse source = .ok e)
    {pos : Nat} {n : Bytes} (htree : e.tree = .name pos n) (hword : IsWord e.source) :
    e.source = n := by
  have hparse := parse_eq_ok h
  rw [htree] at hparse
  exact (Expr.named_of_parse (Q := (· = e.source)) hparse (Expr.lex_word hword)).symm

/-- A bare expression reads its name and nothing else, and its source is that name exactly when
the source is one word. -/
theorem names_eq_source_iff_isWord {source : Bytes} {e : Expression} (h : parse source = .ok e)
    {pos : Nat} {n : Bytes} (htree : e.tree = .name pos n)
    (hn : Bytes.startsWith n "$" = false) :
    e.isBare = true ∧ e.names = [n] ∧ (e.names = [e.source] ↔ IsWord e.source) := by
  have hnames := names_of_name htree hn
  refine ⟨by simp [isBare, htree], hnames, fun hsource => ?_, fun hword => ?_⟩
  · have hfree : IsFree n := Expr.isFree_of_parse (parse_eq_ok h) n (by
      rw [show e.tree.freeNames = [n] from hnames]
      exact List.mem_singleton.2 rfl)
    rw [← List.singleton_inj.1 (hnames.symm.trans hsource)]
    exact hfree.word
  · rw [hnames, source_eq_of_isWord h htree hword]

def readsName (source : Bytes) (pos : Nat) (n : Bytes) : Bool :=
  match Expr.parse source with
  | .ok (.name p m) => p == pos && m == n
  | _ => false

theorem parse_of_readsName {source : Bytes} {pos : Nat} {n : Bytes}
    (h : readsName (Unicode.trim source) pos n = true) :
    parse source = .ok ⟨Unicode.trim source, .name pos n⟩ := by
  unfold readsName at h
  split at h
  · rename_i p m hparse
    simp only [Bool.and_eq_true, beq_iff_eq] at h
    rw [parse, ofSource, hparse, h.1, h.2]
    rfl
  · cases h

theorem names_eq_source_iff_isWord_commented :
    readsName (Unicode.trim " user /* who */ ") 0 "user" = true ∧
    Bytes.startsWith "user" "$" = false ∧ ¬ IsWord (Unicode.trim " user /* who */ ") := by
  have hreads : readsName (Unicode.trim " user /* who */ ") 0 "user" = true := by decide +kernel
  have hplain : Bytes.startsWith "user" "$" = false := by decide
  refine ⟨hreads, hplain, fun hword => ?_⟩
  obtain ⟨-, hnames, hiff⟩ := names_eq_source_iff_isWord (parse_of_readsName hreads) rfl hplain
  have hsource := List.singleton_inj.1 (hnames.symm.trans (hiff.2 hword))
  exact absurd hsource (by decide +kernel)

/-- Brackets around a name stay in the source. -/
theorem names_ne_source_bracketed :
    ∃ e, parse "(a)" = .ok e ∧ e.tree = .name 1 "a" ∧ e.isBare = true ∧
      e.names ≠ [e.source] := by
  have hreads : readsName (Unicode.trim "(a)") 1 "a" = true := by decide +kernel
  refine ⟨_, parse_of_readsName hreads, rfl, rfl, ?_⟩
  rw [names_of_name rfl (by decide)]
  exact fun h => absurd (List.singleton_inj.1 h) (by decide +kernel)

end TagLoom.Expression

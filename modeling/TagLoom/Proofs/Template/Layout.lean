import TagLoom.Proofs.Template.Indent
import TagLoom.Proofs.Template.Lexeme

/-!
# Where tokens stand

The marks of a source stand one behind the other: interpolations, tags, the attributes of a tag and
the interpolations in a quoted value.  All of them start with an ASCII character, so their positions
are in the order of their offsets.
-/

namespace TagLoom

namespace Pos

/-! ## Positions and offsets -/

theorem lastLine_append_of_notMem {w : Bytes} (hw : '\n'.toUInt8 ∉ w) (u : Bytes) :
    lastLine (u ++ w) = lastLine u ++ w := by
  have hall : ∀ c ∈ w.reverse, (c != '\n'.toUInt8) = true := fun c hc =>
    bne_iff_ne.2 fun heq => hw (heq ▸ List.mem_reverse.1 hc)
  rw [lastLine, lastLine, List.reverse_append, List.takeWhile_append_of_pos hall,
    List.reverse_append, List.reverse_reverse]

/-- There is a character between two offsets if an ASCII character stands at the first. -/
theorem before_ofOffset {source : Bytes} {o o' : Nat} {c : UInt8} (hc : source[o]? = some c)
    (hascii : c < 0x80) (hlt : o < o') :
    (ofOffset source o).before (ofOffset source o') = true := by
  obtain ⟨k, rfl⟩ := Nat.exists_eq_add_of_lt hlt
  have htake : source.take (o + k + 1) = source.take o ++ c :: (source.drop (o + 1)).take k := by
    rw [Nat.add_assoc, List.take_add, List.drop_eq_getElem?_toList_append, hc]
    rfl
  rw [ofOffset, ofOffset, htake]
  generalize (source.drop (o + 1)).take k = w
  simp only [before_iff, List.count_append]
  by_cases hline : '\n'.toUInt8 ∈ c :: w
  · have hpos := List.count_pos_iff.2 hline
    exact .inl (by omega)
  · have hnone := List.count_eq_zero.2 hline
    have hsplit := Utf8.scan_append (lastLine (source.take o)) w (Utf8.isContinuation_ascii hascii)
    rw [lastLine_append_of_notMem hline, Utf8.count, Utf8.count, hsplit, List.length_append,
      Utf8.scan_cons, List.length_cons]
    exact .inr ⟨by omega, by omega⟩

/-- The position of an ASCII character between two offsets of a source. -/
def Between (source : Bytes) (lo hi : Nat) (p : Pos) : Prop :=
  ∃ o c, lo ≤ o ∧ o < hi ∧ source[o]? = some c ∧ c < 0x80 ∧ p = ofOffset source o

variable {source : Bytes} {lo lo' mid hi hi' : Nat} {p q : Pos} {ps qs : List Pos}

theorem Between.mono (h : Between source lo hi p) (hlo : lo' ≤ lo) (hhi : hi ≤ hi') :
    Between source lo' hi' p := by
  obtain ⟨o, c, hle, hlt, hc⟩ := h
  exact ⟨o, c, Nat.le_trans hlo hle, Nat.lt_of_lt_of_le hlt hhi, hc⟩

theorem Between.before (hp : Between source lo mid p) (hq : Between source mid hi q) :
    p.before q = true := by
  obtain ⟨o, c, -, hlt, hc, hascii, rfl⟩ := hp
  obtain ⟨o', -, hle, -, -, -, rfl⟩ := hq
  exact before_ofOffset hc hascii (Nat.lt_of_lt_of_le hlt hle)

/-- Positions between two offsets, each before the next. -/
structure Ascending (source : Bytes) (lo hi : Nat) (ps : List Pos) : Prop where
  order : ps.Pairwise fun p q => p.before q = true
  between : ∀ p ∈ ps, Between source lo hi p

theorem Ascending.nil : Ascending source lo hi [] := ⟨.nil, nofun⟩

theorem Ascending.singleton (h : Between source lo hi p) : Ascending source lo hi [p] :=
  ⟨List.pairwise_singleton _ _, List.forall_mem_singleton.2 h⟩

theorem Ascending.mono (h : Ascending source lo hi ps) (hlo : lo' ≤ lo) (hhi : hi ≤ hi') :
    Ascending source lo' hi' ps :=
  ⟨h.order, fun p hp => (h.between p hp).mono hlo hhi⟩

theorem Ascending.append (hps : Ascending source lo mid ps) (hqs : Ascending source mid hi qs)
    (hlo : lo ≤ mid) (hhi : mid ≤ hi) : Ascending source lo hi (ps ++ qs) := by
  refine ⟨List.pairwise_append.2 ⟨hps.order, hqs.order, fun p hp q hq => ?_⟩,
    List.forall_mem_append.2 ⟨fun p hp => ?_, fun q hq => ?_⟩⟩
  · exact (hps.between p hp).before (hqs.between q hq)
  · exact (hps.between p hp).mono (Nat.le_refl lo) hhi
  · exact (hqs.between q hq).mono hlo (Nat.le_refl hi)

end Pos

namespace Name

theorem lt_of_isStart {c : UInt8} (h : isStart c = true) : c < 0x80 := by
  have hmarks : 'a'.toUInt8 = 97 ∧ 'z'.toUInt8 = 122 ∧ 'A'.toUInt8 = 65 ∧ 'Z'.toUInt8 = 90 ∧
      '_'.toUInt8 = 95 := by decide
  simp only [isStart, Bytes.isLetter, Bytes.isLower, Bytes.isUpper, hmarks, Bool.or_eq_true,
    Bool.and_eq_true, decide_eq_true_eq, beq_iff_eq] at h
  grind

end Name

namespace Template

variable {source s : Bytes} {o lo lo' hi : Nat}

/-- An ASCII character stands at an offset. -/
def AsciiAt (source : Bytes) (o : Nat) : Prop := ∃ c, source[o]? = some c ∧ c < 0x80

theorem AsciiAt.between (h : AsciiAt source o) (hlo : lo ≤ o) (hhi : o < hi) :
    Pos.Between source lo hi (Pos.ofOffset source o) := by
  obtain ⟨c, hc, hascii⟩ := h
  exact ⟨o, c, hlo, hhi, hc, hascii, rfl⟩

theorem asciiAt_of_drop {c : UInt8} {rest : Bytes} (h : source.drop o = c :: rest)
    (hc : c < 0x80) : AsciiAt source o := by
  refine ⟨c, ?_, hc⟩
  rw [← Nat.add_zero o, ← List.getElem?_drop, h, List.getElem?_cons_zero]

/-! ## Attributes -/

/-- The attributes of a tag between two offsets of a source, one behind the other. -/
inductive AttrPath (source : Bytes) : Nat → Nat → List Attr → Prop where
  | nil {lo hi : Nat} (h : lo ≤ hi) : AttrPath source lo hi []
  | cons {lo mid hi : Nat} {a : Attr} {attrs : List Attr} (hlo : lo ≤ a.offset) (hmid : a.offset < mid)
      (hstart : AsciiAt source a.offset)
      (hvalue : ∀ base v, a.value = .quoted base v →
        a.offset ≤ base ∧ base + v.length ≤ mid ∧ v <+: source.drop base)
      (hrest : AttrPath source mid hi attrs) : AttrPath source lo hi (a :: attrs)

theorem AttrPath.le {attrs : List Attr} (h : AttrPath source lo hi attrs) : lo ≤ hi := by
  induction h with
  | nil h => exact h
  | cons hlo hmid _ _ _ ih => omega

theorem AttrPath.mono {attrs : List Attr} (h : AttrPath source lo hi attrs) (hlo : lo' ≤ lo) :
    AttrPath source lo' hi attrs := by
  cases h with
  | nil h => exact .nil (Nat.le_trans hlo h)
  | cons hle hmid hstart hvalue hrest => exact .cons (Nat.le_trans hlo hle) hmid hstart hvalue hrest

theorem quoted_prefix {after value : Bytes} {skipped : Nat}
    (h : written after = .quoted skipped value) : value <+: after.drop (skipped + 1) := by
  by_cases hequals : ∃ rest, after.dropWhile Name.isSpace = '='.toUInt8 :: rest
  · obtain ⟨rest, hafter⟩ := hequals
    rw [written_equals hafter] at h
    have hdrop := drop_value hafter
    generalize (after.takeWhile Name.isSpace).length + 1 + _ = skip at h hdrop
    generalize rest.dropWhile Name.isSpace = text at h hdrop
    revert h
    fun_cases writtenValue skip text with
    | case3 q inner hq m hm =>
        intro h
        obtain ⟨rfl, rfl⟩ := Written.quoted.inj h
        rw [← List.drop_drop, hdrop, List.drop_succ_cons, List.drop_zero]
        exact List.take_prefix m inner
    | _ => rintro ⟨⟩
  · rw [written_bare fun h => hequals (List.head?_eq_some_iff.1 h)] at h
    cases h

theorem attrPath_lexAttrs (h : source.drop o = s) :
    AttrPath source o (o + (lexAttrs o s).length) (lexAttrs o s).attrs := by
  induction hn : s.length using Nat.strongRecOn generalizing o s with
  | _ n ih =>
    have hnil : AttrPath source o (o + (lexAttrs o s).length) [] := .nil (Nat.le_add_right _ _)
    by_cases hstart : ∃ c rest, s.dropWhile Name.isSpace = c :: rest ∧ Name.isStart c = true
    · obtain ⟨c, rest, hs, hc⟩ := hstart
      obtain ⟨hbroken, hwhole⟩ := lexAttrs_name (o := o) hs hc
      have hlen := length_of_dropWhile hs
      have hname : 1 ≤ (Name.leading (c :: rest)).length := by simp [Name.leading_cons hc]
      have hat : source.drop (o + (s.takeWhile Name.isSpace).length) = c :: rest := by
        rw [← List.drop_drop, h, drop_takeWhile, hs]
      have hafter : source.drop (o + (s.takeWhile Name.isSpace).length +
          (Name.leading (c :: rest)).length) =
            rest.drop ((Name.leading (c :: rest)).length - 1) := by
        obtain ⟨k, hk⟩ := Nat.exists_eq_add_of_le hname
        rw [← List.drop_drop, hat, hk, Nat.add_comm, List.drop_succ_cons, Nat.add_sub_cancel]
      have hshort : (rest.drop ((Name.leading (c :: rest)).length - 1)).length < n := by
        rw [List.length_drop]
        omega
      generalize (s.takeWhile Name.isSpace).length = gap at hat hafter hbroken hwhole
      generalize Name.leading (c :: rest) = name at hname hafter hbroken hwhole hshort
      generalize rest.drop (name.length - 1) = after at hafter hbroken hwhole hshort
      by_cases hw : written after = .broken
      · rw [(hbroken hw).2]
        exact hnil
      · have hrest := ih _ (Nat.lt_of_le_of_lt (List.length_drop ▸ Nat.sub_le _ _) hshort)
          (s := after.drop (written after).length)
          (o := o + gap + name.length + (written after).length)
          (by rw [← List.drop_drop, hafter]) rfl
        rw [hwhole hw]
        generalize lexAttrs _ (after.drop (written after).length) = next at hrest
        have hend : o + (gap + name.length + (written after).length + next.length) =
            o + gap + name.length + (written after).length + next.length := by omega
        rw [TagTail.consAttr, Nat.add_comm next.length, hend]
        refine .cons (Nat.le_add_right _ _) (by dsimp only; omega)
          (asciiAt_of_drop hat (Name.lt_of_isStart hc)) (fun base v hv => ?_) hrest
        cases hvalue : written after with
        | quoted skipped value =>
            rw [hvalue] at hv
            cases hv
            refine ⟨by dsimp only; omega, by rw [Written.length]; omega, ?_⟩
            rw [Nat.add_assoc, ← List.drop_drop, hafter]
            exact quoted_prefix hvalue
        | _ =>
            rw [hvalue] at hv
            cases hv
    · rw [attrs_eq_nil fun c rest hs => by simpa using fun hc => hstart ⟨c, rest, hs, hc⟩]
      exact hnil

/-! ## Quoted values -/

def holes (pieces : List Piece) : List Nat :=
  pieces.filterMap fun p =>
    match p with
    | .literal _ _ => none
    | .interpolation offset _ => some offset

theorem holes_consLiteral (offset : Nat) (text : Bytes) (pieces : List Piece) :
    holes (consLiteral offset text pieces) = holes pieces := by
  unfold consLiteral
  split <;> rfl

theorem holes_splitText (offset : Nat) (s : Bytes) :
    (holes (splitText offset s)).Pairwise (· < ·) ∧
      ∀ i ∈ holes (splitText offset s), offset ≤ i ∧ s[i - offset]? = some '\x7b'.toUInt8 := by
  fun_induction splitText offset s with
  | case1 => exact ⟨.nil, nofun⟩
  | case2 offset c rest hc ih =>
      rw [holes_consLiteral]
      refine ⟨ih.1, fun i hi => ?_⟩
      obtain ⟨hle, hbrace⟩ := ih.2 i hi
      obtain ⟨k, rfl⟩ := Nat.exists_eq_add_of_le hle
      refine ⟨by omega, ?_⟩
      rw [Nat.add_sub_cancel_left, List.getElem?_drop] at hbrace
      rw [show offset + 2 + k - offset = 1 + k + 1 by omega, List.getElem?_cons_succ]
      exact hbrace
  | case3 offset c rest hno hc n ih =>
      change (offset :: holes _).Pairwise _ ∧ ∀ i ∈ offset :: holes _, _
      refine ⟨List.pairwise_cons.2 ⟨fun i hi => ?_, ih.1⟩,
        List.forall_mem_cons.2 ⟨⟨Nat.le_refl _, ?_⟩, fun i hi => ?_⟩⟩
      · have hle := (ih.2 i hi).1
        omega
      · rw [Nat.sub_self, List.getElem?_cons_zero, eq_of_beq hc]
      · obtain ⟨hle, hbrace⟩ := ih.2 i hi
        obtain ⟨k, rfl⟩ := Nat.exists_eq_add_of_le hle
        refine ⟨by omega, ?_⟩
        rw [Nat.add_sub_cancel_left, List.getElem?_drop] at hbrace
        rw [show offset + n + 1 + k - offset = n + k + 1 by omega, List.getElem?_cons_succ]
        exact hbrace
  | case4 offset c rest hc hbrace ih =>
      rw [holes_consLiteral]
      refine ⟨ih.1, fun i hi => ?_⟩
      obtain ⟨hle, hbrace⟩ := ih.2 i hi
      obtain ⟨k, rfl⟩ := Nat.exists_eq_add_of_le hle
      refine ⟨by omega, ?_⟩
      rw [Nat.add_sub_cancel_left] at hbrace
      rw [show offset + 1 + k - offset = k + 1 by omega, List.getElem?_cons_succ]
      exact hbrace

theorem asciiAt_hole {base : Nat} {value : Bytes} (h : value <+: source.drop base) :
    ∀ i ∈ holes (splitText 0 value), i < value.length ∧ AsciiAt source (base + i) := by
  intro i hi
  have hbrace := ((holes_splitText 0 value).2 i hi).2
  rw [Nat.sub_zero] at hbrace
  obtain ⟨hlt, -⟩ := List.getElem?_eq_some_iff.1 hbrace
  refine ⟨hlt, '\x7b'.toUInt8, ?_, by decide⟩
  obtain ⟨z, hz⟩ := h
  rw [← List.getElem?_drop, ← hz, List.getElem?_append_left hlt, hbrace]

/-! ## Tokens -/

/-- The tokens of a source from an offset on: interpolations and opening tags one behind the other. -/
inductive TokenPath (source : Bytes) : Nat → List Token → Prop where
  | nil {lo : Nat} : TokenPath source lo []
  | text {lo o : Nat} {s : Bytes} {ts : List Token} (hrest : TokenPath source lo ts) :
      TokenPath source lo (.text o s :: ts)
  | interpolation {lo o : Nat} {s : Option Bytes} {ts : List Token} (hlo : lo ≤ o)
      (hstart : AsciiAt source o)
      (hrest : TokenPath source (o + 1) ts) : TokenPath source lo (.interpolation o s :: ts)
  | closing {lo o : Nat} {name : Bytes} {malformed : Bool} {ts : List Token}
      (hrest : TokenPath source lo ts) :
      TokenPath source lo (.closing o name malformed :: ts)
  | opening {lo o hi : Nat} {name : Bytes} {attrs : List Attr}
      {problem : Option (Nat × TagProblem)} {selfClosing : Bool} {ts : List Token} (hlo : lo ≤ o)
      (hstart : AsciiAt source o) (hattrs : AttrPath source (o + 1) hi attrs)
      (hrest : TokenPath source hi ts) :
      TokenPath source lo (.opening o name attrs problem selfClosing :: ts)

theorem TokenPath.mono {ts : List Token} (h : TokenPath source lo ts) (hlo : lo' ≤ lo) :
    TokenPath source lo' ts := by
  induction h generalizing lo' with
  | nil => exact .nil
  | text _ ih => exact .text (ih hlo)
  | interpolation hle hstart hrest => exact .interpolation (Nat.le_trans hlo hle) hstart hrest
  | closing _ ih => exact .closing (ih hlo)
  | opening hle hstart hattrs hrest => exact .opening (Nat.le_trans hlo hle) hstart hattrs hrest

theorem TokenPath.consText {ts : List Token} (h : TokenPath source lo ts) (offset : Nat)
    (piece : Bytes) : TokenPath source lo (consText offset piece ts) := by
  unfold Template.consText
  split
  · cases h with
    | text hrest => exact .text hrest
  split
  · exact h
  · exact .text h

theorem tokenPath_lexMark {c : UInt8} {rest : Bytes} (h : source.drop o = c :: rest)
    (ahead : Option RawAhead) {ts : List Token}
    (hts : TokenPath source (o + (lexMark ahead o c rest).length) ts) :
    TokenPath source o ((lexMark ahead o c rest).found.before o ts) := by
  revert hts
  fun_cases lexMark ahead o c rest with
  | case2 _ hc n _ | case3 _ hc n _ =>
      intro hts
      refine .interpolation (Nat.le_refl o) (asciiAt_of_drop h ?_) (hts.mono ?_)
      · rw [eq_of_beq hc]
        decide
      · dsimp only
        omega
  | case6 => exact fun hts => .closing (hts.mono (Nat.le_add_right _ _))
  | case8 s _ _ _ _ hlt name n _ tail =>
      intro hts
      have htail : source.drop (o + n) = s.drop n := by rw [← List.drop_drop, h]
      have hattrs := attrPath_lexAttrs htail
      refine .opening (Nat.le_refl o) (asciiAt_of_drop h ?_) (hattrs.mono ?_)
        (hts.mono (Nat.le_of_eq (Nat.add_assoc o n tail.length)))
      · rw [eq_of_beq hlt]
        decide
      · omega
  | _ => exact fun hts => (hts.mono (Nat.le_add_right _ _)).consText _ _

theorem tokenPath_lexeme {c : UInt8} {rest : Bytes} (h : source.drop o = c :: rest)
    (ahead : Option RawAhead) {ts : List Token}
    (hts : TokenPath source (o + (lexeme ahead o c rest).length) ts) :
    TokenPath source o ((lexeme ahead o c rest).found.before o ts) := by
  revert hts
  rw [lexeme]
  split
  · exact tokenPath_lexMark h ahead
  · dsimp only
    split
    · exact tokenPath_lexMark h none
    · exact fun hts => (hts.mono (Nat.le_add_right _ _)).consText _ _

theorem tokenPath_lexemes (ahead : Option RawAhead) (h : source.drop o = s) :
    TokenPath source o (tokensOf (lexemes ahead o s)) := by
  fun_induction lexemes ahead o s with
  | case1 => exact .nil
  | case2 ahead o c rest x ih =>
      exact tokenPath_lexeme h ahead (ih (by rw [← List.drop_drop, h]))

theorem tokenPath_lex (source : Bytes) : TokenPath source 0 (lex source) := by
  rw [lex_eq]
  exact tokenPath_lexemes none rfl

end Template

end TagLoom

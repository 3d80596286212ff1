import TagLoom.Proofs.Template.Attributes

/-!
# Lexemes

The cut of a source into tokens goes lexeme by lexeme: a piece of text, or one other token.  Pieces
of text next to each other are one token.
-/

namespace TagLoom.Template

/-- A raw-text element whose tag was met, with the offset its text starts at if the tag is
finished. -/
structure RawAhead where
  name : Bytes
  start : Option Nat

/-- For the cut, the raw text after an unfinished tag starts at the end of the source. -/
def RawAhead.within (total : Nat) (a : RawAhead) : RawText := ⟨a.name, a.start.getD total⟩

/-- Raw text behind a tag starts at the end of the source if the tag has none. -/
theorem RawAhead.within_tagEnd (name s : Bytes) (o : Nat) :
    RawAhead.within (o + s.length) ⟨name, (Scan.tagEnd? s).map (o + ·)⟩ =
      ⟨name, o + Scan.tagEnd s⟩ := by
  rw [RawAhead.within, Scan.tagEnd_eq]
  cases Scan.tagEnd? s with
  | none => rfl
  | some n => rfl

inductive Found where
  | text (piece : Bytes)
  | token (t : Token)

/-- A lexeme with its length, the raw-text element met before its end, and the region it is when the
source ends before that does. -/
structure Lexeme where
  found : Found
  length : Nat
  ahead : Option RawAhead
  unclosed : Option Region

/-- The first lexeme of a non-empty source outside raw text. -/
@[grind =]
def lexMark (ahead : Option RawAhead) (offset : Nat) (c : UInt8) (rest : Bytes) : Lexeme :=
  let s := c :: rest
  if c == '\\'.toUInt8 && rest.head? == some '\x7b'.toUInt8 then ⟨.text "\x7b", 2, ahead, none⟩
  else if c == '\x7b'.toUInt8 then
    match Scan.closeBraces true 1 rest with
    | (n, true) => ⟨.token (.interpolation offset (some (rest.take n))), n + 2, ahead, none⟩
    | (n, false) => ⟨.token (.interpolation offset none), n + 2, ahead, none⟩
  else if Bytes.startsWith s "<!--" then
    match Bytes.indexOf? (s.drop 4) "-->" with
    | some i => ⟨.text (s.take (i + 7)), i + 7, ahead, none⟩
    | none => ⟨.text s, s.length, ahead, some .comment⟩
  else if Bytes.startsWith s "</" then
    let name := Name.leading (rest.drop 1)
    if Name.isActive name then
      let after := (rest.drop 1).drop name.length
      let gap := (after.takeWhile Name.isSpace).length
      let closed := (after.drop gap).head? == some '>'.toUInt8
      let n := 2 + name.length + gap + (if closed then 1 else Scan.tagEnd (after.drop gap))
      ⟨.token (.closing offset name (!closed)), n, ahead, none⟩
    else ⟨.text "<", 1, ahead, none⟩
  else if c == '<'.toUInt8 then
    let name := Name.leading rest
    let n := 1 + name.length
    if Name.isActive name then
      let tail := lexAttrs (offset + n) (s.drop n)
      ⟨.token (.opening offset name tail.attrs tail.problem tail.selfClosing), n + tail.length,
        ahead, none⟩
    else
      let lower := Bytes.lowerAscii name
      let ahead := if isRawElement lower then
          some ⟨lower, (Scan.tagEnd? (s.drop n)).map (offset + n + ·)⟩
        else ahead
      ⟨.text (s.take n), n, ahead, none⟩
  else ⟨.text [c], 1, ahead, none⟩

/-- The element whose raw text an offset is in. -/
def rawAt (ahead : Option RawAhead) (offset : Nat) : Option Bytes :=
  ahead.bind fun a => a.start.bind fun start => if start ≤ offset then some a.name else none

theorem rawAt_eq_some {ahead : Option RawAhead} {offset : Nat} {name : Bytes}
    (h : rawAt ahead offset = some name) :
    ∃ start, ahead = some ⟨name, some start⟩ ∧ start ≤ offset := by
  obtain ⟨⟨name', start⟩, rfl, hstart⟩ := Option.bind_eq_some_iff.1 h
  obtain ⟨start, rfl, hname⟩ := Option.bind_eq_some_iff.1 hstart
  split at hname
  · rename_i hle
    cases hname
    exact ⟨start, rfl, hle⟩
  · cases hname

theorem lt_start_of_rawAt {a : RawAhead} {offset total : Nat} (h : rawAt (some a) offset = none)
    (hlt : offset < total) : offset < (a.within total).start := by
  obtain ⟨name, start⟩ := a
  cases start with
  | none => exact hlt
  | some start =>
      by_contra hle
      have hdue : start ≤ offset := Nat.le_of_not_lt hle
      simp [rawAt, hdue] at h

/-- The first lexeme of a non-empty source. -/
def lexeme (ahead : Option RawAhead) (offset : Nat) (c : UInt8) (rest : Bytes) : Lexeme :=
  match rawAt ahead offset with
  | none => lexMark ahead offset c rest
  | some name =>
      let n := indexFold ("</" ++ name) (c :: rest)
      if n = 0 then lexMark none offset c rest
      else ⟨.text ((c :: rest).take n), n, none,
        if n = rest.length + 1 then some (.rawText name) else none⟩

/-- A closing tag is found again, whether empty raw text is over there or not. -/
theorem lexeme_again (ahead : Option RawAhead) (offset : Nat) (c : UInt8) (rest : Bytes)
    {o : Nat} {name : Bytes} {malformed : Bool}
    (h : (lexeme ahead offset c rest).found = .token (.closing o name malformed)) :
    lexeme (lexeme ahead offset c rest).ahead offset c rest = lexeme ahead offset c rest := by
  have hahead (ahead : Option RawAhead)
      (h : (lexMark ahead offset c rest).found = .token (.closing o name malformed)) :
      (lexMark ahead offset c rest).ahead = ahead := by
    revert h
    fun_cases lexMark ahead offset c rest with
    | case9 => exact nofun
    | _ => exact fun _ => rfl
  cases hraw : rawAt ahead offset with
  | none =>
      have hx : lexeme ahead offset c rest = lexMark ahead offset c rest := by rw [lexeme, hraw]
      rw [hx] at h
      rw [hx, hahead ahead h, hx]
  | some raw =>
      by_cases hn : indexFold ("</" ++ raw) (c :: rest) = 0
      · have hx : lexeme ahead offset c rest = lexMark none offset c rest := by
          rw [lexeme, hraw]
          exact if_pos hn
        rw [hx] at h
        rw [hx, hahead none h]
        rfl
      · have hx : (lexeme ahead offset c rest).found =
            .text ((c :: rest).take (indexFold ("</" ++ raw) (c :: rest))) := by
          rw [lexeme, hraw]
          exact congrArg Lexeme.found (if_neg hn)
        rw [hx] at h
        cases h

theorem length_lexMark_pos (ahead : Option RawAhead) (offset : Nat) (c : UInt8) (rest : Bytes) :
    0 < (lexMark ahead offset c rest).length := by
  fun_cases lexMark ahead offset c rest with
  | case6 _ _ _ _ _ name _ after gap closed n =>
      change 0 < 2 + name.length + gap + _
      omega
  | case8 _ _ _ _ _ _ name n _ tail =>
      change 0 < 1 + name.length + tail.length
      omega
  | case9 _ _ _ _ _ _ name n =>
      change 0 < 1 + name.length
      omega
  | _ => exact Nat.succ_pos _

theorem length_lexeme_pos (ahead : Option RawAhead) (offset : Nat) (c : UInt8) (rest : Bytes) :
    0 < (lexeme ahead offset c rest).length := by
  rw [lexeme]
  split
  · exact length_lexMark_pos ..
  · dsimp only
    split
    · exact length_lexMark_pos ..
    · rename_i hn
      exact Nat.pos_of_ne_zero hn

def lexemes (ahead : Option RawAhead) (offset : Nat) : Bytes → List (Nat × Found)
  | [] => []
  | c :: rest =>
      let x := lexeme ahead offset c rest
      (offset, x.found) :: lexemes x.ahead (offset + x.length) ((c :: rest).drop x.length)
  termination_by s => s.length
  decreasing_by
    have hpos := length_lexeme_pos ahead offset c rest
    simp only [List.length_drop, List.length_cons]
    omega

def endsIn (ahead : Option RawAhead) (offset : Nat) : Bytes → Option Region
  | [] => (rawAt ahead offset).map .rawText
  | c :: rest =>
      let x := lexeme ahead offset c rest
      x.unclosed.or (endsIn x.ahead (offset + x.length) ((c :: rest).drop x.length))
  termination_by s => s.length
  decreasing_by
    have hpos := length_lexeme_pos ahead offset c rest
    simp only [List.length_drop, List.length_cons]
    omega

def Found.before (offset : Nat) (ts : List Token) : Found → List Token
  | .text piece => consText offset piece ts
  | .token t => t :: ts

private theorem drop_cons {n : Nat} (h : 0 < n) (c : UInt8) (rest : Bytes) :
    (c :: rest).drop n = rest.drop (n - 1) := by
  cases n with
  | zero => contradiction
  | succ n => rfl

theorem lexMarkup_eq (ahead : Option RawAhead) (offset : Nat) (c : UInt8) (rest : Bytes) :
    let total := offset + rest.length + 1
    let x := lexMark ahead offset c rest
    lexMarkup (ahead.map (·.within total)) offset c rest = x.found.before offset
      (lexFrom (x.ahead.map (·.within total)) (offset + x.length) ((c :: rest).drop x.length)) := by
  intro total x
  have hpos := length_lexMark_pos ahead offset c rest
  rw [drop_cons hpos]
  change lexMarkup _ _ _ _ = x.found.before offset (lexFrom _ _ (rest.drop (x.length - 1)))
  clear hpos
  rw [lexMarkup]
  subst x
  fun_cases lexMark ahead offset c rest with
  | case1 h => rw [if_pos h]; rfl
  | case2 h hc n hn =>
      rw [if_neg h, if_pos hc, Scan.braces_cons hc, hn]
      rfl
  | case3 h hc n hn =>
      rw [if_neg h, if_pos hc, Scan.braces_cons hc, hn]
      rfl
  | case4 s h hc hcomment i hi =>
      rw [if_neg h, if_neg hc, if_pos hcomment, commentLength, hi]
      rfl
  | case5 s h hc hcomment hi =>
      rw [if_neg h, if_neg hc, if_pos hcomment, commentLength, hi]
      change consText offset ((c :: rest).take (c :: rest).length) _ = consText offset (c :: rest) _
      rw [List.take_length]
  | case6 s h hc hcomment hclose name hactive after gap closed n =>
      rw [if_neg h, if_neg hc, if_neg hcomment, if_pos hclose, if_pos hactive]
      rfl
  | case7 s h hc hcomment hclose name hactive =>
      rw [if_neg h, if_neg hc, if_neg hcomment, if_pos hclose, if_neg hactive]
      rfl
  | case8 s h hc hcomment hclose hlt name n hactive tail =>
      rw [if_neg h, if_neg hc, if_neg hcomment, if_neg hclose, if_pos hlt, if_pos hactive]
      have hsum : offset + (n + tail.length) = offset + n + tail.length := (Nat.add_assoc ..).symm
      change _ = Token.opening offset name _ _ _ :: lexFrom _ (offset + (n + tail.length)) _
      rw [hsum]
  | case9 s h hc hcomment hclose hlt name n hactive lower raw =>
      rw [if_neg h, if_neg hc, if_neg hcomment, if_neg hclose, if_pos hlt, if_neg hactive]
      have hraw : (if isRawElement lower then some (RawText.mk lower (offset + n +
          Scan.tagEnd (s.drop n))) else ahead.map (·.within total)) = raw.map (·.within total) := by
        simp only [raw]
        split
        · have hname := (leading_starts rest).length_le
          have hlen : offset + n + (s.drop n).length = total := by
            simp only [s, n, total, name, List.length_drop, List.length_cons] at hname ⊢
            omega
          rw [Option.map_some, ← hlen, RawAhead.within_tagEnd]
        · rfl
      exact congrArg (fun raw => consText offset (s.take n) (lexFrom raw (offset + n)
        (rest.drop (n - 1)))) hraw
  | case10 s h hc hcomment hclose hlt =>
      rw [if_neg h, if_neg hc, if_neg hcomment, if_neg hclose, if_neg hlt]
      rfl

/-- A piece of text is not empty, and the names of tags belong to the compiler. -/
def Found.Sound : Found → Prop
  | .text piece => piece ≠ []
  | .token (.opening _ name _ _ _) | .token (.closing _ name _) => Name.isActive name = true
  | .token (.interpolation _ _) => True
  | .token (.text _ _) => False

theorem sound_lexMark (ahead : Option RawAhead) (offset : Nat) (c : UInt8) (rest : Bytes) :
    (lexMark ahead offset c rest).found.Sound := by
  fun_cases lexMark ahead offset c rest with
  | case1 => exact fun h => absurd h (by decide)
  | case2 => trivial
  | case3 => trivial
  | case4 => exact List.cons_ne_nil _ _
  | case5 => exact List.cons_ne_nil _ _
  | case6 _ _ _ _ _ _ hactive => exact hactive
  | case7 => exact fun h => absurd h (by decide)
  | case8 _ _ _ _ _ _ _ _ hactive => exact hactive
  | case9 _ _ _ _ _ _ name n =>
      change (c :: rest).take (1 + name.length) ≠ []
      rw [Nat.add_comm]
      exact List.cons_ne_nil _ _
  | case10 => exact List.cons_ne_nil _ _

theorem sound_lexeme (ahead : Option RawAhead) (offset : Nat) (c : UInt8) (rest : Bytes) :
    (lexeme ahead offset c rest).found.Sound := by
  rw [lexeme]
  split
  · exact sound_lexMark ..
  · dsimp only
    split
    · exact sound_lexMark ..
    · rename_i hn
      exact fun hnil => hn ((List.take_eq_nil_iff.1 hnil).resolve_right (List.cons_ne_nil _ _))

theorem consText_nil_before {x : Found} (hx : x.Sound) (offset : Nat) (ts : List Token) :
    consText offset [] (x.before offset ts) = x.before offset ts := by
  cases x with
  | text piece =>
      cases piece with
      | nil => exact absurd rfl hx
      | cons c piece =>
          rw [Found.before]
          cases ts with
          | nil => rfl
          | cons t ts => cases t <;> rfl
  | token t =>
      cases t with
      | text o s => exact hx.elim
      | _ => rfl

theorem lexFrom_cons (ahead : Option RawAhead) (offset : Nat) (c : UInt8) (rest : Bytes) :
    let total := offset + rest.length + 1
    let x := lexeme ahead offset c rest
    lexFrom (ahead.map (·.within total)) offset (c :: rest) = x.found.before offset
      (lexFrom (x.ahead.map (·.within total)) (offset + x.length) ((c :: rest).drop x.length)) := by
  intro total x
  have houtside (h : rawAt ahead offset = none) :
      lexFrom (ahead.map (·.within total)) offset (c :: rest) =
        lexMarkup (ahead.map (·.within total)) offset c rest := by
    refine lexFrom_of_markup (fun r hr => ?_) c rest
    obtain ⟨a, rfl, rfl⟩ := Option.map_eq_some_iff.1 hr
    exact Nat.not_le.2 (lt_start_of_rawAt h (by omega))
  cases hraw : rawAt ahead offset with
  | none =>
      rw [houtside hraw, lexMarkup_eq]
      simp only [x, lexeme, hraw]
      rfl
  | some name =>
      obtain ⟨start, rfl, hle⟩ := rawAt_eq_some hraw
      change lexFrom (some ⟨name, start⟩) offset (c :: rest) = _
      rw [lexFrom_of_rawText hle]
      by_cases hn : indexFold ("</" ++ name) (c :: rest) = 0
      · -- the end tag stands right here
        have hx : x = lexMark none offset c rest := by
          simp only [x, lexeme, hraw]
          rw [if_pos hn]
        rw [hn, hx]
        change consText offset [] (lexFrom none offset (c :: rest)) = _
        rw [lexFrom_of_markup fun r hr => by cases hr]
        exact (congrArg (consText offset []) (lexMarkup_eq none offset c rest)).trans
          (consText_nil_before (sound_lexMark ..) offset _)
      · have hx : x = ⟨.text ((c :: rest).take (indexFold ("</" ++ name) (c :: rest))),
            indexFold ("</" ++ name) (c :: rest), none,
            if indexFold ("</" ++ name) (c :: rest) = rest.length + 1 then some (.rawText name)
            else none⟩ := by
          simp only [x, lexeme, hraw]
          rw [if_neg hn]
        rw [hx]
        rfl

def tokensOf (xs : List (Nat × Found)) : List Token :=
  xs.foldr (fun x ts => x.2.before x.1 ts) []

theorem lexFrom_eq (ahead : Option RawAhead) (offset total : Nat) (s : Bytes)
    (h : s = [] ∨ offset + s.length = total) :
    lexFrom (ahead.map (·.within total)) offset s = tokensOf (lexemes ahead offset s) := by
  fun_induction lexemes ahead offset s with
  | case1 => rw [lexFrom]; rfl
  | case2 ahead offset c rest x ih =>
      obtain rfl : offset + rest.length + 1 = total := h.resolve_left (List.cons_ne_nil _ _)
      rw [lexFrom_cons, ih]
      · rfl
      · by_cases hle : x.length ≤ rest.length
        · refine .inr ?_
          rw [List.length_drop, List.length_cons]
          omega
        · exact .inl (List.drop_eq_nil_of_le (by rw [List.length_cons]; omega))

theorem lex_eq (source : Bytes) : lex source = tokensOf (lexemes none 0 source) :=
  lexFrom_eq none 0 source.length source (.inr (Nat.zero_add _))

theorem sound_of_mem_lexemes (ahead : Option RawAhead) (offset : Nat) (s : Bytes) :
    ∀ x ∈ lexemes ahead offset s, x.2.Sound := by
  fun_induction lexemes ahead offset s with
  | case1 => simp
  | case2 ahead offset c rest x ih => exact List.forall_mem_cons.2 ⟨sound_lexeme .., ih⟩

/-- A text is not empty, and the names of tags belong to the compiler. -/
def Token.Sound : Token → Prop
  | .text _ s => s ≠ []
  | .interpolation _ _ => True
  | .opening _ name _ _ _ | .closing _ name _ => Name.isActive name = true

theorem sound_before {x : Found} (hx : x.Sound) (offset : Nat) {ts : List Token}
    (hts : ∀ t ∈ ts, t.Sound) : ∀ t ∈ x.before offset ts, t.Sound := by
  cases x with
  | text piece =>
      change ∀ t ∈ consText offset piece ts, t.Sound
      unfold consText
      split
      · exact List.forall_mem_cons.2 ⟨fun h => hx (List.append_eq_nil_iff.1 h).1,
          (List.forall_mem_cons.1 hts).2⟩
      · split
        · exact hts
        · exact List.forall_mem_cons.2 ⟨hx, hts⟩
  | token t =>
      refine List.forall_mem_cons.2 ⟨?_, hts⟩
      cases t with
      | text o s => exact hx.elim
      | _ => exact hx

theorem sound_of_mem_lex (source : Bytes) : ∀ t ∈ lex source, t.Sound := by
  have hsound := sound_of_mem_lexemes none 0 source
  rw [lex_eq]
  generalize lexemes none 0 source = xs at hsound
  induction xs with
  | nil => simp [tokensOf]
  | cons x xs ih =>
      obtain ⟨hx, hxs⟩ := List.forall_mem_cons.1 hsound
      exact sound_before hx x.1 (ih hxs)

/-! ## Places of tokens -/

/-- A token that stands before an offset, with its attributes. -/
def Token.Within (total : Nat) : Token → Prop
  | .text offset _ | .interpolation offset _ | .closing offset _ _ => offset ≤ total
  | .opening offset _ attrs _ _ => offset ≤ total ∧ ∀ a ∈ attrs, a.Within total

def Found.Within (total : Nat) : Found → Prop
  | .text _ => True
  | .token t => t.Within total

theorem within_lexMark (ahead : Option RawAhead) (offset : Nat) (c : UInt8) (rest : Bytes) :
    (lexMark ahead offset c rest).found.Within (offset + rest.length + 1) := by
  have hle : offset ≤ offset + rest.length + 1 := Nat.le_add_right offset (rest.length + 1)
  fun_cases lexMark ahead offset c rest with
  | case2 => exact hle
  | case3 => exact hle
  | case6 => exact hle
  | case8 s h hc hcomment hclose hlt name n hactive tail =>
      have hname := (leading_starts rest).length_le
      have hlen : offset + n + (s.drop n).length = offset + rest.length + 1 := by
        simp only [s, n, name, List.length_drop, List.length_cons]
        omega
      refine ⟨hle, ?_⟩
      rw [← hlen]
      exact within_lexAttrs (offset + n) (s.drop n)
  | _ => trivial

theorem within_lexeme (ahead : Option RawAhead) (offset : Nat) (c : UInt8) (rest : Bytes) :
    (lexeme ahead offset c rest).found.Within (offset + rest.length + 1) := by
  rw [lexeme]
  split
  · exact within_lexMark ..
  · dsimp only
    split
    · exact within_lexMark ..
    · trivial

theorem within_of_mem_lexemes (ahead : Option RawAhead) (offset total : Nat) (s : Bytes)
    (h : s = [] ∨ offset + s.length = total) :
    ∀ x ∈ lexemes ahead offset s, x.1 ≤ total ∧ x.2.Within total := by
  fun_induction lexemes ahead offset s with
  | case1 => simp
  | case2 ahead offset c rest x ih =>
      obtain rfl : offset + rest.length + 1 = total := h.resolve_left (List.cons_ne_nil _ _)
      refine List.forall_mem_cons.2 ⟨⟨?_, within_lexeme ..⟩, ih ?_⟩
      · exact Nat.le_add_right offset (rest.length + 1)
      by_cases hle : x.length ≤ rest.length
      · refine .inr ?_
        rw [List.length_drop, List.length_cons]
        omega
      · exact .inl (List.drop_eq_nil_of_le (by rw [List.length_cons]; omega))

theorem within_before {total offset : Nat} {x : Found} (ho : offset ≤ total) (hx : x.Within total)
    {ts : List Token} (hts : ∀ t ∈ ts, t.Within total) :
    ∀ t ∈ x.before offset ts, t.Within total := by
  cases x with
  | text piece =>
      change ∀ t ∈ consText offset piece ts, t.Within total
      unfold consText
      split
      · exact List.forall_mem_cons.2 ⟨ho, (List.forall_mem_cons.1 hts).2⟩
      · split
        · exact hts
        · exact List.forall_mem_cons.2 ⟨ho, hts⟩
  | token t => exact List.forall_mem_cons.2 ⟨hx, hts⟩

theorem within_of_mem_lex (source : Bytes) : ∀ t ∈ lex source, t.Within source.length := by
  have hwithin := within_of_mem_lexemes none 0 source.length source (.inr (Nat.zero_add _))
  rw [lex_eq]
  generalize lexemes none 0 source = xs at hwithin
  induction xs with
  | nil => simp [tokensOf]
  | cons x xs ih =>
      obtain ⟨hx, hxs⟩ := List.forall_mem_cons.1 hwithin
      exact within_before hx.1 hx.2 (ih hxs)

/-! ## Blank sources -/

def Token.isBlank : Token → Bool
  | .text _ s => Name.isBlank s
  | _ => false

theorem isBlank_append (s t : Bytes) :
    Name.isBlank (s ++ t) = (Name.isBlank s && Name.isBlank t) := List.all_append

theorem exists_mem_consText {offset : Nat} {piece : Bytes} {ts : List Token}
    (h : Name.isBlank piece = false ∨ ∃ t ∈ ts, t.isBlank = false) :
    ∃ t ∈ consText offset piece ts, t.isBlank = false := by
  unfold consText
  split
  · rename_i o more ts
    by_cases hmore : Name.isBlank (piece ++ more) = false
    · exact ⟨_, List.mem_cons_self, hmore⟩
    · rw [isBlank_append] at hmore
      simp only [Bool.not_eq_false, Bool.and_eq_true] at hmore
      obtain ⟨t, ht, hblank⟩ := h.resolve_left (by simp [hmore.1])
      rcases List.mem_cons.1 ht with rfl | ht
      · exact absurd hmore.2 (by simpa [Token.isBlank] using hblank)
      · exact ⟨t, List.mem_cons_of_mem _ ht, hblank⟩
  · split
    · rename_i hempty
      refine h.resolve_left fun hpiece => ?_
      rw [List.isEmpty_iff.1 hempty] at hpiece
      cases hpiece
    · rcases h with hpiece | ⟨t, ht, hblank⟩
      · exact ⟨_, List.mem_cons_self, hpiece⟩
      · exact ⟨t, List.mem_cons_of_mem _ ht, hblank⟩

theorem exists_mem_before_lexMark {c : UInt8} (hc : Name.isSpace c = false) (offset : Nat)
    (rest : Bytes) (ts : List Token) :
    ∃ t ∈ (lexMark none offset c rest).found.before offset ts, t.isBlank = false := by
  have hcons (s : Bytes) : Name.isBlank (c :: s) = false := by simp [Name.isBlank, hc]
  fun_cases lexMark none offset c rest with
  | case1 => exact exists_mem_consText (.inl (by decide))
  | case2 => exact ⟨_, List.mem_cons_self, rfl⟩
  | case3 => exact ⟨_, List.mem_cons_self, rfl⟩
  | case4 => exact exists_mem_consText (.inl (hcons _))
  | case5 => exact exists_mem_consText (.inl (hcons _))
  | case6 => exact ⟨_, List.mem_cons_self, rfl⟩
  | case7 => exact exists_mem_consText (.inl (by decide))
  | case8 => exact ⟨_, List.mem_cons_self, rfl⟩
  | case9 _ _ _ _ _ _ name n =>
      refine exists_mem_consText (.inl ?_)
      change Name.isBlank ((c :: rest).take (1 + name.length)) = false
      rw [Nat.add_comm]
      exact hcons _
  | case10 => exact exists_mem_consText (.inl (hcons _))

theorem exists_mem_lex {source : Bytes} (h : Name.isBlank source = false) :
    ∃ t ∈ lex source, t.isBlank = false := by
  rw [lex_eq]
  generalize 0 = offset
  induction source generalizing offset with
  | nil => cases h
  | cons c rest ih =>
      have hlexeme : lexeme none offset c rest = lexMark none offset c rest := rfl
      rw [lexemes, hlexeme]
      by_cases hc : Name.isSpace c = true
      · have hmark : lexMark none offset c rest = ⟨.text [c], 1, none, none⟩ := by
          simp only [Name.isSpace, Bool.or_eq_true, beq_iff_eq] at hc
          rcases hc with (((rfl | rfl) | rfl) | rfl) | rfl <;> rfl
        rw [hmark]
        exact exists_mem_consText (.inr (ih (by simpa [Name.isBlank, hc] using h) (offset + 1)))
      · exact exists_mem_before_lexMark (by simpa using hc) offset rest _

end TagLoom.Template

import TagLoom.Proofs.Bytes.Text
import TagLoom.Proofs.Bytes.Utf8
import TagLoom.Code.Print

/-!
# Text literals in code

Code reads a text literal as the text it stands for: what stands between back quotes as it is, and
what stands between quotes with its escapes resolved.  Every text constant that is printed between
quotes reads back as its text.  One printed between back quotes does so if the text is well-formed;
otherwise the code is none.
-/

namespace TagLoom.Code

/-! ## What a literal stands for -/

def digit? (base : Nat) (c : UInt8) : Option Nat :=
  let value :=
    if Bytes.isDigit c then c.toNat - 48
    else if Bytes.isLower c then c.toNat - 87
    else if Bytes.isUpper c then c.toNat - 55
    else base
  if value < base then some value else none

def number? (base : Nat) (digits : Bytes) : Option Nat :=
  digits.foldlM (fun n c => (digit? base c).map (n * base + ·)) 0

/-- The number at the start of a text, of a fixed number of digits. -/
def leadingNumber? (base width : Nat) (s : Bytes) : Option Nat :=
  if s.length < width then none else number? base (s.take width)

/-- The text for the value of an escape of a code point. -/
def scalarText? (r : Nat) : Option Bytes :=
  if Utf8.IsScalar r then some (Utf8.encode r) else none

/-- The byte that a letter or mark stands for behind a backslash. -/
def letterValue? (c : UInt8) : Option UInt8 :=
  if c == 'a'.toUInt8 then some 7
  else if c == 'b'.toUInt8 then some 8
  else if c == 'f'.toUInt8 then some 12
  else if c == 'n'.toUInt8 then some 10
  else if c == 'r'.toUInt8 then some 13
  else if c == 't'.toUInt8 then some 9
  else if c == 'v'.toUInt8 then some 11
  else if c == '\\'.toUInt8 || c == '"'.toUInt8 then some c
  else none

/-- What an escape stands for, given what follows its backslash, and the number of bytes it takes
there. -/
def escape? : Bytes → Option (Bytes × Nat)
  | [] => none
  | c :: rest =>
      match letterValue? c with
      | some b => some ([b], 1)
      | none =>
          if c == 'x'.toUInt8 then (leadingNumber? 16 2 rest).map fun n => ([n.toUInt8], 3)
          else if c == 'u'.toUInt8 then
            ((leadingNumber? 16 4 rest).bind scalarText?).map fun t => (t, 5)
          else if c == 'U'.toUInt8 then
            ((leadingNumber? 16 8 rest).bind scalarText?).map fun t => (t, 9)
          else
            ((leadingNumber? 8 3 (c :: rest)).filter (· ≤ 0xFF)).map fun n => ([n.toUInt8], 3)

/-- The text between quotes, given what follows the first one. -/
def quotedValue? : Bytes → Option Bytes
  | [] => none
  | c :: rest =>
      if c == '"'.toUInt8 then if rest.isEmpty then some [] else none
      else if c == 10 then none
      else if c == '\\'.toUInt8 then
        match escape? rest with
        | some (t, n) => (quotedValue? (rest.drop n)).map (t ++ ·)
        | none => none
      else (quotedValue? rest).map (c :: ·)
  termination_by s => s.length
  decreasing_by all_goals simp only [List.length_drop, List.length_cons]; omega

/-- The text between back quotes, given what follows the first one, without carriage returns. -/
def rawValue? (s : Bytes) : Option Bytes :=
  let body := s.takeWhile (· != 0x60)
  if s.drop body.length == [0x60] then some (body.filter (· != 13)) else none

/-- The text between the marks of a literal. -/
def markedValue? : Bytes → Option Bytes
  | c :: rest =>
      if c == 0x60 then rawValue? rest
      else if c == '"'.toUInt8 then quotedValue? rest
      else none
  | [] => none

/-- The text that a literal stands for, if it is one: its characters may stand in code, and it is a
text between back quotes or between quotes. -/
def literalValue? (code : Bytes) : Option Bytes :=
  if (characterProblems 1 (Utf8.cells code)).isEmpty then markedValue? code else none

/-! ## Hexadecimal numbers -/

theorem digit?_digitChar {d : Nat} (hd : d < 16) :
    digit? 16 (Nat.digitChar d).toUInt8 = some d := by
  have hall : ∀ d < 16, digit? 16 (Nat.digitChar d).toUInt8 = some d := by decide
  exact hall d hd

theorem number?_append (base : Nat) (a : Bytes) (c : UInt8) :
    number? base (a ++ [c]) =
      (number? base a).bind fun n => (digit? base c).map (n * base + ·) := by
  simp [number?, List.foldlM_append, List.foldlM_cons, List.foldlM_nil]

theorem number?_toDigits (n : Nat) :
    number? 16 ((Nat.toDigits 16 n).map fun c => c.toUInt8) = some n := by
  induction n using Nat.strongRecOn with
  | _ n ih =>
      rw [Nat.toDigits_eq_if (by decide)]
      split
      · next hn => simp [number?, digit?_digitChar hn]
      · next hn =>
        rw [List.map_append, List.map_cons, List.map_nil, number?_append, ih _ (by omega)]
        have hlast : n % 16 < 16 := Nat.mod_lt n (by decide)
        simp only [Option.bind_some, digit?_digitChar hlast, Option.map_some]
        congr 1
        omega

theorem number?_zeros (k : Nat) (s : Bytes) :
    number? 16 (Bytes.fill k 48 ++ s) = number? 16 s := by
  induction k with
  | zero => rfl
  | succ k ih =>
      have hzero : digit? 16 48 = some 0 := by decide
      rw [← ih]
      simp [number?, Bytes.fill, List.replicate_succ, List.foldlM_cons, hzero]

theorem length_hex {width n : Nat} (hpos : 0 < width) (hn : n < 16 ^ width) :
    (Bytes.hex width n).length = width := by
  have hle := (Nat.length_toDigits_le_iff (b := 16) (by decide) hpos).2 hn
  simp only [Bytes.hex, Bytes.fill, List.length_append, List.length_replicate, List.length_map]
  omega

theorem leadingNumber?_hex {width n : Nat} (hpos : 0 < width) (hn : n < 16 ^ width) (t : Bytes) :
    leadingNumber? 16 width (Bytes.hex width n ++ t) = some n := by
  have hlength := length_hex hpos hn
  rw [leadingNumber?, if_neg (by rw [List.length_append]; omega), List.take_left' hlength,
    Bytes.hex, number?_zeros, number?_toDigits]

/-! ## Pieces of a quoted text -/

/-- What stands for a text inside quotes, whatever follows. -/
def Copies (piece text : Bytes) : Prop :=
  ∀ t, quotedValue? (piece ++ t) = (quotedValue? t).map (text ++ ·)

variable {piece text s : Bytes} {c : UInt8} {r : Nat}

theorem copies_nil : Copies [] [] := by
  intro t
  simp

theorem Copies.append {piece' text' : Bytes} (h : Copies piece text) (h' : Copies piece' text') :
    Copies (piece ++ piece') (text ++ text') := by
  intro t
  rw [List.append_assoc, h, h', Option.map_map]
  simp [Function.comp_def]

theorem copies_plain (hquote : c ≠ '"'.toUInt8) (hline : c ≠ 10) (hescape : c ≠ '\\'.toUInt8) :
    Copies [c] [c] := by
  intro t
  rw [List.singleton_append, quotedValue?]
  simp [hquote, hline, hescape]

theorem copies_all (h : ∀ c ∈ s, c ≠ '"'.toUInt8 ∧ c ≠ 10 ∧ c ≠ '\\'.toUInt8) : Copies s s := by
  induction s with
  | nil => exact copies_nil
  | cons c s ih =>
      obtain ⟨hc, hs⟩ := List.forall_mem_cons.1 h
      exact (copies_plain hc.1 hc.2.1 hc.2.2).append (ih hs)

theorem copies_escape (h : ∀ t, escape? (piece ++ t) = some (text, piece.length)) :
    Copies ('\\'.toUInt8 :: piece) text := by
  intro t
  have hquote : '\\'.toUInt8 ≠ '"'.toUInt8 := by decide
  have hline : '\\'.toUInt8 ≠ 10 := by decide
  rw [List.cons_append, quotedValue?, h t]
  simp [hquote, hline]

theorem copies_letter {b : UInt8} (h : letterValue? c = some b) : Copies ['\\'.toUInt8, c] [b] :=
  copies_escape fun t => by simp [escape?, h]

theorem copies_hexByte {n : Nat} (hn : n < 0x100) :
    Copies ("\\x" ++ Bytes.hex 2 n) [n.toUInt8] := by
  have hmark : Bytes.ofString "\\x" = ['\\'.toUInt8, 'x'.toUInt8] := by decide
  have hletter : letterValue? 'x'.toUInt8 = none := by decide
  have hlength : (Bytes.hex 2 n).length = 2 := length_hex (by decide) hn
  have hescape : ∀ t, escape? ('x'.toUInt8 :: Bytes.hex 2 n ++ t) =
      some ([n.toUInt8], ('x'.toUInt8 :: Bytes.hex 2 n).length) := by
    intro t
    have hnumber : leadingNumber? 16 2 (Bytes.hex 2 n ++ t) = some n :=
      leadingNumber?_hex (by decide) hn t
    simp [escape?, hletter, hnumber, hlength]
  rw [hmark]
  exact copies_escape hescape

theorem scalarText?_of_isScalar (hr : Utf8.IsScalar r) : scalarText? r = some (Utf8.encode r) :=
  if_pos hr

theorem copies_hexShort (hr : Utf8.IsScalar r) (hshort : r < 0x10000) :
    Copies ("\\u" ++ Bytes.hex 4 r) (Utf8.encode r) := by
  have hmark : Bytes.ofString "\\u" = ['\\'.toUInt8, 'u'.toUInt8] := by decide
  have hletter : letterValue? 'u'.toUInt8 = none := by decide
  have hx : 'u'.toUInt8 ≠ 'x'.toUInt8 := by decide
  have hlength : (Bytes.hex 4 r).length = 4 := length_hex (by decide) hshort
  have hescape : ∀ t, escape? ('u'.toUInt8 :: Bytes.hex 4 r ++ t) =
      some (Utf8.encode r, ('u'.toUInt8 :: Bytes.hex 4 r).length) := by
    intro t
    have hnumber : leadingNumber? 16 4 (Bytes.hex 4 r ++ t) = some r :=
      leadingNumber?_hex (by decide) hshort t
    simp [escape?, hletter, hx, hnumber, scalarText?_of_isScalar hr, hlength]
  rw [hmark]
  exact copies_escape hescape

theorem copies_hexLong (hr : Utf8.IsScalar r) :
    Copies ("\\U" ++ Bytes.hex 8 r) (Utf8.encode r) := by
  have hmark : Bytes.ofString "\\U" = ['\\'.toUInt8, 'U'.toUInt8] := by decide
  have hletter : letterValue? 'U'.toUInt8 = none := by decide
  have hx : 'U'.toUInt8 ≠ 'x'.toUInt8 := by decide
  have hu : 'U'.toUInt8 ≠ 'u'.toUInt8 := by decide
  have hlong : r < 16 ^ 8 := Nat.lt_of_le_of_lt hr.1 (by decide)
  have hlength : (Bytes.hex 8 r).length = 8 := length_hex (by decide) hlong
  have hescape : ∀ t, escape? ('U'.toUInt8 :: Bytes.hex 8 r ++ t) =
      some (Utf8.encode r, ('U'.toUInt8 :: Bytes.hex 8 r).length) := by
    intro t
    have hnumber : leadingNumber? 16 8 (Bytes.hex 8 r ++ t) = some r :=
      leadingNumber?_hex (by decide) hlong t
    simp [escape?, hletter, hx, hu, hnumber, scalarText?_of_isScalar hr, hlength]
  rw [hmark]
  exact copies_escape hescape

/-! ## Characters of code -/

def MayStand (c : Utf8.Cell) : Prop :=
  ¬(c.rune = Utf8.replacement ∧ c.spelled.length = 1) ∧ c.rune ≠ 0 ∧ c.rune ≠ 0xFEFF

/-- A text whose characters may all stand in code. -/
def Sound (s : Bytes) : Prop := ∀ c ∈ Utf8.cells s, MayStand c

theorem characterProblems_eq_nil_iff {offset : Nat} (hpos : 0 < offset) (cs : List Utf8.Cell) :
    characterProblems offset cs = [] ↔ ∀ c ∈ cs, MayStand c := by
  induction cs generalizing offset with
  | nil => simp [characterProblems]
  | cons c cs ih =>
      have hrest : characterProblems (offset + c.spelled.length) cs = [] ↔ ∀ c ∈ cs, MayStand c :=
        ih (by omega)
      rw [List.forall_mem_cons, characterProblems]
      simp only [Bool.and_eq_true, beq_iff_eq, decide_eq_true_eq]
      split
      · next hill => simp [MayStand, hill]
      split
      · next hnul => simp [MayStand, hnul]
      split
      · next hmark => simp [MayStand, hmark]
      · next hill hnul hmark =>
        have hc : MayStand c := ⟨hill, hnul, fun h => hmark ⟨h, hpos⟩⟩
        rw [hrest]
        exact ⟨fun h => ⟨hc, h⟩, And.right⟩

theorem sound_nil : Sound [] := by
  simp [Sound]

theorem not_ill_of_spells (h : Utf8.Spells s r) : ¬(r = Utf8.replacement ∧ s.length = 1) := by
  rintro ⟨rfl, hlength⟩
  cases h with
  | one hc hr =>
      rw [← hr] at hc
      exact absurd hc (by decide)
  | two | three | four => simp at hlength

theorem sound_spells (h : Utf8.Spells s r) (t : Bytes) :
    Sound (s ++ t) ↔ (r ≠ 0 ∧ r ≠ 0xFEFF) ∧ Sound t := by
  have hone := not_ill_of_spells h
  rw [Sound, h.cells_append, List.forall_mem_cons]
  simp only [MayStand, hone, not_false_eq_true, true_and]
  rfl

theorem not_sound_ill {t : Bytes} (h : Utf8.decode (c :: t) = (Utf8.replacement, 1)) :
    ¬Sound (c :: t) := by
  intro hsound
  rw [Sound, Utf8.cells_ill h, List.forall_mem_cons] at hsound
  exact hsound.1.1 ⟨rfl, rfl⟩

theorem sound_ascii (hc : c < 0x80) (t : Bytes) : Sound (c :: t) ↔ c ≠ 0 ∧ Sound t := by
  have hspells : Utf8.Spells [c] c.toNat := .one hc rfl
  have hnat : c.toNat < 128 := hc
  have hzero : c.toNat ≠ 0 ↔ c ≠ 0 := by
    rw [ne_eq, ne_eq, ← UInt8.toNat_inj]
    rfl
  have h := sound_spells hspells t
  rw [List.singleton_append] at h
  rw [h, hzero]
  constructor
  · exact fun h => ⟨h.1.1, h.2⟩
  · exact fun h => ⟨⟨h.1, by omega⟩, h.2⟩

/-- What stands for a text inside quotes in any code. -/
structure StandsFor (piece text : Bytes) : Prop where
  copies : Copies piece text
  sound : ∀ t, Sound t → Sound (piece ++ t)

theorem StandsFor.append {piece' text' : Bytes} (h : StandsFor piece text)
    (h' : StandsFor piece' text') : StandsFor (piece ++ piece') (text ++ text') := by
  refine ⟨h.copies.append h'.copies, fun t ht => ?_⟩
  rw [List.append_assoc]
  exact h.sound _ (h'.sound t ht)

theorem standsFor_nil : StandsFor [] [] := ⟨copies_nil, fun _ ht => ht⟩

def isPlainAscii (c : UInt8) : Bool := c < 0x80 && c != 0

theorem sound_append_ascii (h : s.all isPlainAscii = true) {t : Bytes} (ht : Sound t) :
    Sound (s ++ t) := by
  induction s with
  | nil => exact ht
  | cons c s ih =>
      obtain ⟨hc, hs⟩ := Bool.and_eq_true_iff.1 (List.all_cons.symm.trans h)
      simp only [isPlainAscii, Bool.and_eq_true, decide_eq_true_eq, bne_iff_ne] at hc
      exact (sound_ascii hc.1 _).2 ⟨hc.2, ih hs⟩

theorem standsFor_ascii (h : Copies piece text) (hascii : piece.all isPlainAscii = true) :
    StandsFor piece text :=
  ⟨h, fun _ ht => sound_append_ascii hascii ht⟩

theorem isPlainAscii_hex (width n : Nat) : (Bytes.hex width n).all isPlainAscii = true := by
  have hdigit : ∀ d < 16, isPlainAscii (Nat.digitChar d).toUInt8 = true := by decide
  have hdigits : ∀ n, ∀ c ∈ Nat.toDigits 16 n, isPlainAscii c.toUInt8 = true := by
    intro n
    induction n using Nat.strongRecOn with
    | _ n ih =>
        rw [Nat.toDigits_eq_if (by decide)]
        split
        · next hn => simpa using hdigit n hn
        · next hn =>
          intro c hc
          obtain hc | hc := List.mem_append.1 hc
          · exact ih _ (by omega) c hc
          · rw [List.mem_singleton.1 hc]
            exact hdigit _ (Nat.mod_lt n (by decide))
  refine List.all_eq_true.2 fun c hc => ?_
  rw [Bytes.hex, List.mem_append, List.mem_map] at hc
  obtain hc | ⟨d, hd, rfl⟩ := hc
  · rw [(List.mem_replicate.1 hc).2]
    decide
  · exact hdigits n d hd

/-! ## Quoted characters -/

theorem not_isPrintable_low (hr : r < 0x20) : Unicode.isPrintable r = false := by
  simp only [Unicode.isPrintable]
  rw [if_pos (by omega)]
  simpa using fun h : 32 ≤ r => by omega

theorem isPrintable_mark : Unicode.isPrintable 0xFEFF = false := by
  decide +kernel

theorem standsFor_hex {mark : Bytes} {width n : Nat} (hmark : mark.all isPlainAscii = true)
    (h : Copies (mark ++ Bytes.hex width n) text) :
    StandsFor (mark ++ Bytes.hex width n) text := by
  refine standsFor_ascii h ?_
  rw [List.all_append, hmark, isPlainAscii_hex, Bool.and_self]

theorem standsFor_ill (c : UInt8) : StandsFor (Bytes.quoteRune 0x22 Utf8.replacement [c]) [c] := by
  have hquoted : Bytes.quoteRune 0x22 Utf8.replacement [c] = "\\x" ++ Bytes.hex 2 c.toNat := rfl
  have hcopies := copies_hexByte (n := c.toNat) c.toNat_lt
  rw [hquoted]
  exact standsFor_hex (by decide) (by simpa using hcopies)

theorem eq_singleton_of_spells (h : Utf8.Spells s r) (hr : r < 0x80) : s = [r.toUInt8] := by
  rw [← h.encode_eq, Utf8.encode_eq, if_pos hr]

theorem standsFor_printable (h : Utf8.Spells s r) (hquote : r ≠ 0x22) (hescape : r ≠ 0x5C)
    (hprintable : Unicode.isPrintable r = true) : StandsFor s s := by
  have hlow : ¬r < 0x20 := fun hlow => by simp [not_isPrintable_low hlow] at hprintable
  have hplain : ∀ c ∈ s, c ≠ '"'.toUInt8 ∧ c ≠ 10 ∧ c ≠ '\\'.toUInt8 := by
    intro c hc
    by_cases hascii : r < 0x80
    · rw [eq_singleton_of_spells h hascii, List.mem_singleton] at hc
      have hnat : c.toNat = r := by
        rw [hc, Utf8.toNat_toUInt8 (by omega)]
      refine ⟨?_, ?_, ?_⟩ <;> rintro rfl
      · exact hquote hnat.symm
      · exact hlow (hnat ▸ by decide)
      · exact hescape hnat.symm
    · rw [← h.encode_eq] at hc
      have hhigh := Utf8.not_ascii_of_mem_encode (Nat.not_lt.1 hascii) hc
      refine ⟨?_, ?_, ?_⟩ <;> rintro rfl <;> exact hhigh (by decide)
  refine ⟨copies_all hplain, fun t ht => (sound_spells h t).2 ⟨⟨by omega, ?_⟩, ht⟩⟩
  rintro rfl
  simp [isPrintable_mark] at hprintable

theorem standsFor_letter (h : Utf8.Spells s r) (hletter : Bytes.letterEscape? r = some c) :
    StandsFor [0x5C, c] s := by
  rw [← h.encode_eq]
  simp only [Bytes.letterEscape?, beq_iff_eq] at hletter
  repeat' split at hletter
  all_goals cases hletter
  all_goals
    subst_vars
    exact standsFor_ascii (copies_letter (by decide)) (by decide)

theorem standsFor_quoteRune (h : Utf8.Spells s r) : StandsFor (Bytes.quoteRune 0x22 r s) s := by
  have hill : ¬(r == Utf8.replacement && s.length == 1) = true := by
    simpa using not_ill_of_spells h
  have hr := h.isScalar
  have hself := h.encode_eq
  rw [Bytes.quoteRune, if_neg hill]
  split
  · next hmark =>
    simp only [Bool.or_eq_true, beq_iff_eq] at hmark
    rw [← hself]
    obtain rfl | rfl := hmark
    · exact standsFor_ascii (copies_letter (by decide)) (by decide)
    · exact standsFor_ascii (copies_letter (by decide)) (by decide)
  next hmark =>
  simp only [Bool.or_eq_true, beq_iff_eq, not_or] at hmark
  split
  · next hprintable => exact standsFor_printable h hmark.1 hmark.2 hprintable
  split
  · next hletter => exact standsFor_letter h hletter
  split
  · next hcontrol =>
    have hascii : r < 0x80 := by
      simp only [Bool.or_eq_true, decide_eq_true_eq, beq_iff_eq] at hcontrol
      omega
    rw [eq_singleton_of_spells h hascii]
    exact standsFor_hex (by decide) (copies_hexByte (by omega))
  rw [← hself]
  split
  · next hshort => exact standsFor_hex (by decide) (copies_hexShort hr hshort)
  · exact standsFor_hex (by decide) (copies_hexLong hr)

/-! ## Quoted texts -/

theorem quoteInner_ill {mark : Nat} {rest : Bytes}
    (h : Utf8.decode (c :: rest) = (Utf8.replacement, 1)) :
    Bytes.quoteInner mark (c :: rest) =
      Bytes.quoteRune mark Utf8.replacement [c] ++ Bytes.quoteInner mark rest := by
  rw [Bytes.quoteInner, h]
  simp

theorem quoteInner_spells {mark : Nat} (h : Utf8.Spells s r) (rest : Bytes) :
    Bytes.quoteInner mark (s ++ rest) =
      Bytes.quoteRune mark r s ++ Bytes.quoteInner mark rest := by
  obtain ⟨c, s, rfl⟩ := List.exists_cons_of_ne_nil h.ne_nil
  have hdecode := h.decode_append rest
  rw [List.cons_append] at hdecode ⊢
  rw [Bytes.quoteInner, hdecode]
  simp

theorem standsFor_quoteInner (s : Bytes) : StandsFor (Bytes.quoteInner 0x22 s) s := by
  induction s using Utf8.text_induction with
  | nil =>
      rw [Bytes.quoteInner]
      exact standsFor_nil
  | ill c rest hc hbad ih =>
      rw [quoteInner_ill hbad]
      exact (standsFor_ill c).append ih
  | char s r rest hs ih =>
      rw [quoteInner_spells hs]
      exact (standsFor_quoteRune hs).append ih

theorem characterProblems_isEmpty_iff (code : Bytes) :
    (characterProblems 1 (Utf8.cells code)).isEmpty = true ↔ Sound code := by
  rw [List.isEmpty_iff, characterProblems_eq_nil_iff (by decide)]
  rfl

theorem literalValue?_of_sound {code : Bytes} (h : Sound code) :
    literalValue? code = markedValue? code :=
  if_pos ((characterProblems_isEmpty_iff code).2 h)

theorem literalValue?_of_not_sound {code : Bytes} (h : ¬Sound code) : literalValue? code = none :=
  if_neg fun hempty => h ((characterProblems_isEmpty_iff code).1 hempty)

theorem literalValue?_quote (s : Bytes) : literalValue? (Bytes.quote s) = some s := by
  have hquote : Bytes.ofString "\"" = ['"'.toUInt8] := by decide
  have hstands := standsFor_quoteInner s
  have hclosing : Sound ['"'.toUInt8] := (sound_ascii (by decide) []).2 ⟨by decide, sound_nil⟩
  have hsound : Sound ('"'.toUInt8 :: (Bytes.quoteInner 0x22 s ++ ['"'.toUInt8])) :=
    (sound_ascii (by decide) _).2 ⟨by decide, hstands.sound _ hclosing⟩
  have hvalue : quotedValue? ['"'.toUInt8] = some [] := by
    rw [quotedValue?]
    rfl
  have hmark : ('"'.toUInt8 == 0x60) = false := by decide
  rw [Bytes.quote, hquote, List.append_assoc, List.singleton_append, literalValue?_of_sound hsound]
  simp only [markedValue?, hmark, Bool.false_eq_true, if_false, beq_self_eq_true, if_true]
  rw [hstands.copies, hvalue]
  simp

/-! ## Texts between back quotes -/

theorem prefersRaw_spec (h : Layout.prefersRaw s = true) :
    (∀ c ∈ s, c ≠ 0x60 ∧ c ≠ 13) ∧
      ∀ r ∈ Utf8.runes s, r = 10 ∨ r = 9 ∨ Unicode.isPrintable r = true := by
  simp only [Layout.prefersRaw, Bool.and_eq_true, Bool.not_eq_true', List.any_eq_false,
    List.all_eq_true, Bool.or_eq_true, beq_iff_eq, not_or] at h
  exact ⟨h.1.2, fun r hr => by simpa [or_assoc] using h.2 r hr⟩

theorem rawValue?_append (h : ∀ c ∈ s, c ≠ 0x60 ∧ c ≠ 13) : rawValue? (s ++ [0x60]) = some s := by
  have hbody : (s ++ [0x60]).takeWhile (· != 0x60) = s := by
    rw [List.takeWhile_append_of_pos (fun c hc => by simp [(h c hc).1])]
    simp
  have hkept : s.filter (· != 13) = s :=
    List.filter_eq_self.2 fun c hc => by simp [(h c hc).2]
  simp only [rawValue?, hbody, List.drop_left, beq_self_eq_true, if_true, hkept]

theorem isValid_spells (h : Utf8.Spells s r) (rest : Bytes) :
    Utf8.isValid (s ++ rest) = Utf8.isValid rest := by
  have hfirst : (r == Utf8.replacement && s.length == 1) = false := by
    simpa using not_ill_of_spells h
  simp only [Utf8.isValid, h.scan_append, List.all_cons, hfirst, Bool.not_false, Bool.true_and]

theorem isValid_ill {rest : Bytes} (h : Utf8.decode (c :: rest) = (Utf8.replacement, 1)) :
    Utf8.isValid (c :: rest) = false := by
  rw [Utf8.isValid, Utf8.scan_cons, List.all_cons, h]
  rfl

theorem runes_spells (h : Utf8.Spells s r) (rest : Bytes) :
    Utf8.runes (s ++ rest) = r :: Utf8.runes rest := by
  rw [Utf8.runes, h.scan_append, List.map_cons, Utf8.runes]

/-- Before a back quote a text whose characters all print may stand in code exactly if it is
well-formed: an ill-formed byte counts as a character that prints. -/
theorem sound_append_backquote_iff
    (h : ∀ r ∈ Utf8.runes s, r = 10 ∨ r = 9 ∨ Unicode.isPrintable r = true) :
    Sound (s ++ [0x60]) ↔ Utf8.isValid s = true := by
  induction s using Utf8.text_induction with
  | nil =>
      rw [List.nil_append, sound_ascii (by decide)]
      simp [sound_nil, Utf8.isValid]
  | ill c rest hc hbad ih =>
      have hbad' : Utf8.decode (c :: (rest ++ [0x60])) = (Utf8.replacement, 1) := by
        rw [← hbad]
        exact Utf8.decode_append c rest [] (by decide)
      rw [List.cons_append, isValid_ill hbad]
      simp [not_sound_ill hbad']
  | char s r rest hs ih =>
      rw [runes_spells hs, List.forall_mem_cons] at h
      have hstand : r ≠ 0 ∧ r ≠ 0xFEFF := by
        constructor <;> rintro rfl
        · simp [not_isPrintable_low] at h
        · simp [isPrintable_mark] at h
      rw [List.append_assoc, sound_spells hs, isValid_spells hs, ih h.2]
      simp [hstand]

/-! ## Text constants -/

/-- A text constant reads back as its text, unless it is printed between back quotes and the text is
ill-formed: then it is no literal. -/
theorem literalValue?_textConstant (s : Bytes) :
    literalValue? (Layout.textConstant s) =
      if Layout.prefersRaw s && !Utf8.isValid s then none else some s := by
  rw [Layout.textConstant]
  by_cases hraw : Layout.prefersRaw s = true
  · obtain ⟨hbytes, hrunes⟩ := prefersRaw_spec hraw
    have hsound := sound_append_backquote_iff hrunes
    have hcode : Sound (0x60 :: (s ++ [0x60])) ↔ Utf8.isValid s = true := by
      rw [sound_ascii (by decide), hsound]
      simp
    simp only [hraw, if_true, Bool.true_and, List.cons_append, List.nil_append]
    by_cases hvalid : Utf8.isValid s = true
    · rw [literalValue?_of_sound (hcode.2 hvalid), hvalid]
      simpa [markedValue?] using rawValue?_append hbytes
    · rw [literalValue?_of_not_sound (fun h => hvalid (hcode.1 h))]
      simp [hvalid]
  · have hquoted : Layout.prefersRaw s = false := by simpa using hraw
    simp [hquoted, literalValue?_quote]

/-- A quote and a byte that is part of no character: the byte is printed as it is. -/
theorem literalValue?_textConstant_ne :
    ¬∀ s : Bytes, literalValue? (Layout.textConstant s) = some s := by
  intro h
  have hill := h ['"'.toUInt8, 0xFF]
  have hrunes : Utf8.runes ['"'.toUInt8, 0xFF] = [0x22, 0xFFFD] := by decide_cbv
  have hprintable : Unicode.isPrintable 0xFFFD = true := by decide +kernel
  have hraw : Layout.prefersRaw ['"'.toUInt8, 0xFF] = true := by
    rw [Layout.prefersRaw, hrunes, List.all_cons, List.all_cons, hprintable]
    decide
  have hinvalid : Utf8.isValid ['"'.toUInt8, 0xFF] = false := by decide_cbv
  rw [literalValue?_textConstant, hraw, hinvalid] at hill
  cases hill

end TagLoom.Code

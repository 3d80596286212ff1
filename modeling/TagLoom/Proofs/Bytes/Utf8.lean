import Mathlib.Data.List.Basic
import TagLoom.Unicode.Case

/-!
# Characters and the bytes that spell them

What is read at the start of a text is either one ill-formed byte or the spelling of the code point
that is read, and every spelling is read back, whatever follows.  A code point that is not ASCII is
spelled without ASCII bytes.  Characters are read from the front, and a byte that continues no
character starts a new one, so a text is read in two parts wherever such a byte stands.
-/

namespace TagLoom.Utf8

variable {c c₁ c₂ c₃ : UInt8} {r : Nat}

/-! ## Reading from the front -/

@[simp] theorem scan_nil : scan [] = [] := by
  rw [scan]

theorem scan_cons (c : UInt8) (rest : Bytes) :
    scan (c :: rest) =
      decode (c :: rest) :: scan (rest.drop ((decode (c :: rest)).2 - 1)) := by
  rw [scan]

@[simp] theorem cells_nil : cells [] = [] := by
  rw [cells]

theorem cells_cons (c : UInt8) (rest : Bytes) :
    cells (c :: rest) =
      ⟨(decode (c :: rest)).1, c :: rest.take ((decode (c :: rest)).2 - 1)⟩ ::
        cells (rest.drop ((decode (c :: rest)).2 - 1)) := by
  rw [cells]

theorem decode_ascii {c : UInt8} (rest : Bytes) (hc : c < 0x80) :
    decode (c :: rest) = (c.toNat, 1) := by
  simp [decode, hc]

private theorem secondRange_continuation (c : UInt8) {x : UInt8} (hx : isContinuation x = false) :
    x < (secondRange c).1 ∨ (secondRange c).2 < x := by
  simp only [isContinuation, Bool.and_eq_false_iff, decide_eq_false_iff_not] at hx
  unfold secondRange
  repeat' split
  all_goals grind

theorem decode_append (c : UInt8) (rest : Bytes) {x : UInt8} (more : Bytes)
    (hx : isContinuation x = false) : decode (c :: rest ++ x :: more) = decode (c :: rest) := by
  have hsecond := secondRange_continuation c hx
  rcases rest with _ | ⟨c₁, _ | ⟨c₂, _ | ⟨c₃, rest⟩⟩⟩
  · simp only [List.cons_append, List.nil_append, decode]
    grind
  · simp only [List.cons_append, List.nil_append, decode]
    grind
  · simp only [List.cons_append, List.nil_append, decode]
    grind
  · simp only [List.cons_append, decode]

theorem decode_length_le (c : UInt8) (rest : Bytes) :
    (decode (c :: rest)).2 - 1 ≤ rest.length := by
  rcases rest with _ | ⟨c₁, _ | ⟨c₂, _ | ⟨c₃, rest⟩⟩⟩
  all_goals
    simp only [decode]
    repeat' split
    all_goals simp_all

theorem scan_append (s : Bytes) {x : UInt8} (more : Bytes) (hx : isContinuation x = false) :
    scan (s ++ x :: more) = scan s ++ scan (x :: more) := by
  induction hlen : s.length using Nat.strongRecOn generalizing s with
  | _ n ih =>
      cases s with
      | nil => simp
      | cons c rest =>
          have hshort : (rest.drop ((decode (c :: rest)).2 - 1)).length < n := by
            rw [← hlen]
            simp only [List.length_drop, List.length_cons]
            omega
          rw [List.cons_append, scan_cons, ← List.cons_append, decode_append c rest more hx,
            List.drop_append_of_le_length (decode_length_le c rest), ih _ hshort _ rfl,
            scan_cons c rest, List.cons_append]

theorem runes_append (s : Bytes) {x : UInt8} (more : Bytes) (hx : isContinuation x = false) :
    runes (s ++ x :: more) = runes s ++ runes (x :: more) := by
  simp [runes, scan_append s more hx]

theorem ofRunes_append (a b : List Rune) : ofRunes (a ++ b) = ofRunes a ++ ofRunes b := by
  simp [ofRunes]

theorem isContinuation_ascii {c : UInt8} (hc : c < 0x80) : isContinuation c = false := by
  simp only [isContinuation, Bool.and_eq_false_iff, decide_eq_false_iff_not]
  grind

theorem runes_ascii {s : Bytes} (h : ∀ c ∈ s, c < 0x80) : runes s = s.map (·.toNat) := by
  induction s with
  | nil => simp [runes]
  | cons c s ih =>
      have hc : c < 0x80 := h c (by simp)
      have hs := ih fun d hd => h d (by simp [hd])
      simp only [runes] at hs
      simp [runes, scan_cons, decode_ascii s hc, hs]

/-! ## Spellings -/

/-- A value that UTF-8 spells. -/
def IsScalar (r : Nat) : Prop := r ≤ 0x10FFFF ∧ ¬(0xD800 ≤ r ∧ r ≤ 0xDFFF)

instance (r : Nat) : Decidable (IsScalar r) := inferInstanceAs (Decidable (_ ∧ _))

theorem encode_eq (r : Nat) : encode r =
    if r < 0x80 then [r.toUInt8]
    else if r < 0x800 then [(0xC0 + r / 64).toUInt8, (0x80 + r % 64).toUInt8]
    else if (0xD800 ≤ r ∧ r ≤ 0xDFFF) ∨ 0x10FFFF < r then [0xEF, 0xBF, 0xBD]
    else if r < 0x10000 then
      [(0xE0 + r / 4096).toUInt8, (0x80 + r / 64 % 64).toUInt8, (0x80 + r % 64).toUInt8]
    else [(0xF0 + r / 262144).toUInt8, (0x80 + r / 4096 % 64).toUInt8,
      (0x80 + r / 64 % 64).toUInt8, (0x80 + r % 64).toUInt8] := by
  simp only [encode, isSurrogate, gt_iff_lt, Bool.or_eq_true, Bool.and_eq_true, decide_eq_true_eq]

theorem encode_ne_nil (r : Nat) : encode r ≠ [] := by
  rw [encode_eq]
  repeat' split
  all_goals simp

theorem not_ascii_toUInt8 {n : Nat} (hlow : 0x80 ≤ n) (hhigh : n < 0x100) :
    ¬n.toUInt8 < 0x80 := by
  rw [UInt8.lt_iff_toNat_lt, UInt8.toNat_ofNat']
  change ¬n % 256 < 128
  omega

theorem not_ascii_of_mem_encode (hr : 0x80 ≤ r) {b : UInt8} (hb : b ∈ encode r) : ¬b < 0x80 := by
  rw [encode_eq, if_neg (by omega)] at hb
  split at hb
  · simp only [List.mem_cons, List.not_mem_nil, or_false] at hb
    rcases hb with rfl | rfl
    all_goals exact not_ascii_toUInt8 (by omega) (by omega)
  split at hb
  · simp only [List.mem_cons, List.not_mem_nil, or_false] at hb
    rcases hb with rfl | rfl | rfl <;> decide
  split at hb
  all_goals
    simp only [List.mem_cons, List.not_mem_nil, or_false] at hb
    rcases hb with rfl | rfl | rfl | rfl <;> exact not_ascii_toUInt8 (by omega) (by omega)

/-! ## Well-formed sequences -/

theorem isContinuation_iff (c : UInt8) :
    isContinuation c = true ↔ 0x80 ≤ c.toNat ∧ c.toNat ≤ 0xBF := by
  simp [isContinuation, UInt8.le_iff_toNat_le]

theorem secondRange_toNat (c : UInt8) :
    (secondRange c).1.toNat =
        (if c.toNat = 0xE0 then 0xA0 else if c.toNat = 0xF0 then 0x90 else 0x80) ∧
      (secondRange c).2.toNat =
        if c.toNat = 0xED then 0x9F else if c.toNat = 0xF4 then 0x8F else 0xBF := by
  unfold secondRange
  simp only [beq_iff_eq, ← UInt8.toNat_inj]
  repeat' split
  all_goals simp_all

/-- What a byte after the first one of a sequence can be. -/
structure Follows (c c₁ : UInt8) : Prop where
  low : 0x80 ≤ c₁.toNat
  high : c₁.toNat ≤ 0xBF
  notOverlong : c.toNat = 0xE0 → 0xA0 ≤ c₁.toNat
  notSurrogate : c.toNat = 0xED → c₁.toNat ≤ 0x9F
  notOverlongFour : c.toNat = 0xF0 → 0x90 ≤ c₁.toNat
  notBeyond : c.toNat = 0xF4 → c₁.toNat ≤ 0x8F

theorem follows_iff (c c₁ : UInt8) :
    Follows c c₁ ↔
      ¬(decide (c₁ < (secondRange c).1) || decide (c₁ > (secondRange c).2)) = true := by
  obtain ⟨hfirst, hlast⟩ := secondRange_toNat c
  simp only [Bool.or_eq_true, decide_eq_true_eq, not_or, gt_iff_lt, UInt8.lt_iff_toNat_lt, hfirst,
    hlast, Nat.not_lt]
  constructor
  · intro h
    obtain ⟨low, high, h₁, h₂, h₃, h₄⟩ := h
    grind
  · rintro ⟨hlow, hhigh⟩
    constructor <;> grind

theorem decode_two (hc : 0xC2 ≤ c.toNat ∧ c.toNat < 0xE0) (h₁ : Follows c c₁) (rest : Bytes) :
    decode (c :: c₁ :: rest) = ((c.toNat - 0xC0) * 64 + (c₁.toNat - 0x80), 2) := by
  have hsecond := (follows_iff c c₁).1 h₁
  have hbad : ¬(decide (c < 0xC2) || decide (c > 0xF4)) = true := by
    simp [UInt8.lt_iff_toNat_lt]
    omega
  simp only [decode]
  rw [if_neg (by rw [UInt8.lt_iff_toNat_lt]; change ¬c.toNat < 0x80; omega), if_neg hbad,
    if_neg hsecond, if_pos (by rw [UInt8.lt_iff_toNat_lt]; exact hc.2)]

theorem decode_three (hc : 0xE0 ≤ c.toNat ∧ c.toNat < 0xF0) (h₁ : Follows c c₁)
    (h₂ : isContinuation c₂ = true) (rest : Bytes) :
    decode (c :: c₁ :: c₂ :: rest) =
      ((c.toNat - 0xE0) * 4096 + (c₁.toNat - 0x80) * 64 + (c₂.toNat - 0x80), 3) := by
  have hsecond := (follows_iff c c₁).1 h₁
  have hbad : ¬(decide (c < 0xC2) || decide (c > 0xF4)) = true := by
    simp [UInt8.lt_iff_toNat_lt]
    omega
  simp only [decode]
  rw [if_neg (by rw [UInt8.lt_iff_toNat_lt]; change ¬c.toNat < 0x80; omega), if_neg hbad,
    if_neg hsecond, if_neg (by rw [UInt8.lt_iff_toNat_lt]; change ¬c.toNat < 0xE0; omega),
    if_neg (by simp [h₂]), if_pos (by rw [UInt8.lt_iff_toNat_lt]; exact hc.2)]

theorem decode_four (hc : 0xF0 ≤ c.toNat ∧ c.toNat ≤ 0xF4) (h₁ : Follows c c₁)
    (h₂ : isContinuation c₂ = true) (h₃ : isContinuation c₃ = true) (rest : Bytes) :
    decode (c :: c₁ :: c₂ :: c₃ :: rest) =
      ((c.toNat - 0xF0) * 262144 + (c₁.toNat - 0x80) * 4096 + (c₂.toNat - 0x80) * 64 +
        (c₃.toNat - 0x80), 4) := by
  have hsecond := (follows_iff c c₁).1 h₁
  have hbad : ¬(decide (c < 0xC2) || decide (c > 0xF4)) = true := by
    simp [UInt8.lt_iff_toNat_lt]
    omega
  simp only [decode]
  rw [if_neg (by rw [UInt8.lt_iff_toNat_lt]; change ¬c.toNat < 0x80; omega), if_neg hbad,
    if_neg hsecond, if_neg (by rw [UInt8.lt_iff_toNat_lt]; change ¬c.toNat < 0xE0; omega),
    if_neg (by simp [h₂]), if_neg (by rw [UInt8.lt_iff_toNat_lt]; change ¬c.toNat < 0xF0; omega),
    if_neg (by simp [h₃])]

inductive Spells : Bytes → Nat → Prop where
  | one {c : UInt8} {r : Nat} (hc : c.toNat < 0x80) (hr : r = c.toNat) : Spells [c] r
  | two {c c₁ : UInt8} {r : Nat} (hc : 0xC2 ≤ c.toNat ∧ c.toNat < 0xE0) (h₁ : Follows c c₁)
      (hr : r = (c.toNat - 0xC0) * 64 + (c₁.toNat - 0x80)) : Spells [c, c₁] r
  | three {c c₁ c₂ : UInt8} {r : Nat} (hc : 0xE0 ≤ c.toNat ∧ c.toNat < 0xF0) (h₁ : Follows c c₁)
      (h₂ : isContinuation c₂ = true)
      (hr : r = (c.toNat - 0xE0) * 4096 + (c₁.toNat - 0x80) * 64 + (c₂.toNat - 0x80)) :
      Spells [c, c₁, c₂] r
  | four {c c₁ c₂ c₃ : UInt8} {r : Nat} (hc : 0xF0 ≤ c.toNat ∧ c.toNat ≤ 0xF4)
      (h₁ : Follows c c₁) (h₂ : isContinuation c₂ = true) (h₃ : isContinuation c₃ = true)
      (hr : r = (c.toNat - 0xF0) * 262144 + (c₁.toNat - 0x80) * 4096 + (c₂.toNat - 0x80) * 64 +
        (c₃.toNat - 0x80)) : Spells [c, c₁, c₂, c₃] r

theorem Spells.decode_append {s : Bytes} (h : Spells s r) (rest : Bytes) :
    decode (s ++ rest) = (r, s.length) := by
  cases h with
  | one hc hr => rw [hr]; exact decode_ascii rest hc
  | two hc h₁ hr => rw [hr]; simp [decode_two hc h₁ rest]
  | three hc h₁ h₂ hr => rw [hr]; simp [decode_three hc h₁ h₂ rest]
  | four hc h₁ h₂ h₃ hr => rw [hr]; simp [decode_four hc h₁ h₂ h₃ rest]

theorem Spells.isScalar {s : Bytes} (h : Spells s r) : IsScalar r := by
  cases h with
  | one hc hr => exact ⟨by omega, by omega⟩
  | two hc h₁ hr =>
      obtain ⟨low, high, -, -, -, -⟩ := h₁
      exact ⟨by omega, by omega⟩
  | three hc h₁ h₂ hr =>
      rw [isContinuation_iff] at h₂
      obtain ⟨low, high, -, notSurrogate, -, -⟩ := h₁
      exact ⟨by omega, by omega⟩
  | four hc h₁ h₂ h₃ hr =>
      rw [isContinuation_iff] at h₂ h₃
      obtain ⟨low, high, -, -, notOverlong, notBeyond⟩ := h₁
      exact ⟨by omega, by omega⟩

theorem toUInt8_eq {n : Nat} (h : n = c.toNat) : n.toUInt8 = c := by
  subst h
  simp

theorem Spells.encode_eq {s : Bytes} (h : Spells s r) : encode r = s := by
  obtain ⟨hmax, hsurrogate⟩ := h.isScalar
  rw [Utf8.encode_eq]
  cases h with
  | one hc hr => rw [if_pos (by omega), toUInt8_eq hr]
  | two hc h₁ hr =>
      obtain ⟨low, high, -, -, -, -⟩ := h₁
      rw [if_neg (by omega), if_pos (by omega)]
      simp only [List.cons.injEq, and_true]
      exact ⟨toUInt8_eq (by omega), toUInt8_eq (by omega)⟩
  | three hc h₁ h₂ hr =>
      rw [isContinuation_iff] at h₂
      obtain ⟨low, high, notOverlong, -, -, -⟩ := h₁
      rw [if_neg (by omega), if_neg (by omega), if_neg (by omega), if_pos (by omega)]
      simp only [List.cons.injEq, and_true]
      exact ⟨toUInt8_eq (by omega), toUInt8_eq (by omega), toUInt8_eq (by omega)⟩
  | four hc h₁ h₂ h₃ hr =>
      rw [isContinuation_iff] at h₂ h₃
      obtain ⟨low, high, -, -, notOverlong, -⟩ := h₁
      rw [if_neg (by omega), if_neg (by omega), if_neg (by omega), if_neg (by omega)]
      simp only [List.cons.injEq, and_true]
      exact ⟨toUInt8_eq (by omega), toUInt8_eq (by omega), toUInt8_eq (by omega),
        toUInt8_eq (by omega)⟩

theorem toNat_toUInt8 {n : Nat} (h : n < 0x100) : n.toUInt8.toNat = n := by
  rw [UInt8.toNat_ofNat']
  exact Nat.mod_eq_of_lt h

theorem decode_cases (c : UInt8) (rest : Bytes) :
    (¬c < 0x80 ∧ decode (c :: rest) = (replacement, 1)) ∨
      ∃ s more r, Spells s r ∧ c :: rest = s ++ more := by
  by_cases hone : c < 0x80
  · exact .inr ⟨[c], rest, _, .one hone rfl, rfl⟩
  simp only [decode, hone, if_false, not_false_eq_true, true_and]
  split
  · exact .inl rfl
  next hc =>
  have hc : 0xC2 ≤ c.toNat ∧ c.toNat ≤ 0xF4 := by
    simpa [UInt8.lt_iff_toNat_lt] using hc
  split
  · exact .inl rfl
  next c₁ rest =>
  split
  · exact .inl rfl
  next hsecond =>
  have h₁ := (follows_iff c c₁).2 hsecond
  split
  · next htwo => exact .inr ⟨[c, c₁], rest, _, .two ⟨hc.1, htwo⟩ h₁ rfl, rfl⟩
  next htwo =>
  have htwo : 0xE0 ≤ c.toNat := Nat.not_lt.1 htwo
  split
  · exact .inl rfl
  next c₂ rest =>
  split
  · exact .inl rfl
  next h₂ =>
  have h₂ : isContinuation c₂ = true := by simpa using h₂
  split
  · next hthree => exact .inr ⟨[c, c₁, c₂], rest, _, .three ⟨htwo, hthree⟩ h₁ h₂ rfl, rfl⟩
  next hthree =>
  split
  · exact .inl rfl
  next c₃ rest =>
  split
  · exact .inl rfl
  next h₃ =>
  exact .inr ⟨[c, c₁, c₂, c₃], rest, _,
    .four ⟨Nat.not_lt.1 hthree, hc.2⟩ h₁ h₂ (by simpa using h₃) rfl, rfl⟩

theorem Spells.ne_nil {s : Bytes} (h : Spells s r) : s ≠ [] := by
  cases h <;> simp

theorem Spells.scan_append {s : Bytes} (h : Spells s r) (rest : Bytes) :
    scan (s ++ rest) = (r, s.length) :: scan rest := by
  obtain ⟨c, s', rfl⟩ := List.exists_cons_of_ne_nil h.ne_nil
  have hdecode := h.decode_append rest
  rw [List.cons_append] at hdecode ⊢
  rw [scan_cons, hdecode]
  simp

theorem Spells.exists_ascii {s : Bytes} (h : Spells s r) (hr : r < 0x80) :
    ∃ c, c < 0x80 ∧ s = [c] := by
  cases h with
  | one hc => exact ⟨_, hc, rfl⟩
  | two => omega
  | three hc h₁ =>
      obtain ⟨low, high, notOverlong, -, -, -⟩ := h₁
      omega
  | four hc h₁ =>
      obtain ⟨low, high, -, -, notOverlong, -⟩ := h₁
      omega

theorem Spells.eq_toNat (h : Spells [c] r) : r = c.toNat := by
  cases h with
  | one _ hr => exact hr

theorem Spells.cells_append {s : Bytes} (h : Spells s r) (rest : Bytes) :
    cells (s ++ rest) = ⟨r, s⟩ :: cells rest := by
  obtain ⟨c, s', rfl⟩ := List.exists_cons_of_ne_nil h.ne_nil
  have hdecode := h.decode_append rest
  rw [List.cons_append] at hdecode ⊢
  rw [cells_cons, hdecode]
  simp

theorem cells_ill {rest : Bytes} (h : decode (c :: rest) = (replacement, 1)) :
    cells (c :: rest) = ⟨replacement, [c]⟩ :: cells rest := by
  rw [cells_cons, h]
  simp

theorem text_induction {P : Bytes → Prop} (nil : P [])
    (ill : ∀ c rest, ¬c < 0x80 → decode (c :: rest) = (replacement, 1) → P rest → P (c :: rest))
    (char : ∀ s r rest, Spells s r → P rest → P (s ++ rest)) (s : Bytes) : P s := by
  induction hlen : s.length using Nat.strongRecOn generalizing s with
  | _ n ih =>
      cases s with
      | nil => exact nil
      | cons c rest =>
          obtain ⟨hc, hbad⟩ | ⟨s, more, r, hs, hsplit⟩ := decode_cases c rest
          · exact ill c rest hc hbad (ih rest.length (by simp [← hlen]) rest rfl)
          · have hpos := List.length_pos_iff.2 hs.ne_nil
            have hshort : more.length < n := by
              rw [← hlen, hsplit, List.length_append]
              omega
            exact hsplit ▸ char s r more hs (ih more.length hshort more rfl)

end TagLoom.Utf8

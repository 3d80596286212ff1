import Mathlib
import TagLoom.Bytes

/-!
# Order, numbers and occurrences in texts

Texts are ordered by their bytes, and sorting by texts that differ gives one strict order, whatever
the order before.  A number in decimal digits is told by its text, also at the end of a name that
does not end in a digit.
Where a text occurs in another one: no occurrence goes over a byte that the text does not hold, so a
text can be searched piece by piece.
-/

namespace TagLoom.Bytes

/-! ## Order -/

attribute [local simp] lt le

theorem lt_irrefl (a : Bytes) : lt a a = false := by
  induction a with
  | nil => rfl
  | cons c a ih => simp [lt, ih]

theorem lt_trans {a b c : Bytes} (hab : lt a b = true) (hbc : lt b c = true) : lt a c = true := by
  induction a generalizing b c with
  | nil =>
      cases c with
      | nil => cases b <;> cases hbc
      | cons y c => rfl
  | cons x a ih =>
      cases b with
      | nil => cases hab
      | cons y b =>
          cases c with
          | nil => cases hbc
          | cons z c =>
              simp only [lt, Bool.or_eq_true, decide_eq_true_eq, Bool.and_eq_true,
                beq_iff_eq] at hab hbc ⊢
              rcases hab with hab | ⟨rfl, hab⟩
              · rcases hbc with hbc | ⟨rfl, -⟩
                · exact Or.inl (UInt8.lt_trans hab hbc)
                · exact Or.inl hab
              · rcases hbc with hbc | ⟨rfl, hbc⟩
                · exact Or.inl hbc
                · exact Or.inr ⟨rfl, ih hab hbc⟩

theorem lt_or_eq_or_lt (a b : Bytes) : lt a b = true ∨ a = b ∨ lt b a = true := by
  induction a generalizing b with
  | nil =>
      cases b with
      | nil => exact Or.inr (Or.inl rfl)
      | cons y b => exact Or.inl rfl
  | cons x a ih =>
      cases b with
      | nil => exact Or.inr (Or.inr rfl)
      | cons y b =>
          have hbytes : x < y ∨ x = y ∨ y < x := by
            simp only [UInt8.lt_iff_toNat_lt, ← UInt8.toNat_inj]
            omega
          rcases hbytes with hxy | rfl | hyx
          · exact Or.inl (by simp [lt, hxy])
          · rcases ih b with h | rfl | h
            · exact Or.inl (by simp [lt, h])
            · exact Or.inr (Or.inl rfl)
            · exact Or.inr (Or.inr (by simp [lt, h]))
          · exact Or.inr (Or.inr (by simp [lt, hyx]))

theorem lt_asymm {a b : Bytes} (h : lt a b = true) : lt b a = false := by
  by_contra hba
  have hloop := lt_trans h (by simpa using hba)
  simp [lt_irrefl] at hloop

theorem le_total (a b : Bytes) : (le a b || le b a) = true := by
  rcases lt_or_eq_or_lt a b with h | rfl | h
  · simp [le, lt_asymm h]
  · simp [le, lt_irrefl]
  · simp [le, lt_asymm h]

theorem le_antisymm {a b : Bytes} (hab : le a b = true) (hba : le b a = true) : a = b := by
  rcases lt_or_eq_or_lt a b with h | h | h
  · simp [le, h] at hba
  · exact h
  · simp [le, h] at hab

theorem le_trans {a b c : Bytes} (hab : le a b = true) (hbc : le b c = true) : le a c = true := by
  rcases lt_or_eq_or_lt a c with h | rfl | h
  · have htotal := le_total a c
    simpa [le, h] using htotal
  · simp [le, lt_irrefl]
  · rcases lt_or_eq_or_lt a b with hlt | rfl | hlt
    · have hcb := lt_trans h hlt
      simp [le, hcb] at hbc
    · exact hbc
    · simp [le, hlt] at hab

theorem lt_of_le_of_ne {a b : Bytes} (h : le a b = true) (hne : a ≠ b) : lt a b = true := by
  rcases lt_or_eq_or_lt a b with hlt | heq | hlt
  · exact hlt
  · exact absurd heq hne
  · simp [le, hlt] at h

theorem pairwise_lt_mergeSort {α : Type} (key : α → Bytes) {xs : List α} (h : (xs.map key).Nodup) :
    ((xs.mergeSort fun a b => le (key a) (key b)).map key).Pairwise fun a b => lt a b = true := by
  have hsorted : (xs.mergeSort fun a b => le (key a) (key b)).Pairwise fun a b =>
      le (key a) (key b) = true :=
    List.pairwise_mergeSort (fun a b c => le_trans (a := key a) (b := key b) (c := key c))
      (fun a b => le_total (key a) (key b)) xs
  have hnodup : ((xs.mergeSort fun a b => le (key a) (key b)).map key).Nodup :=
    ((List.mergeSort_perm _ _).map key).nodup_iff.2 h
  rw [List.pairwise_map]
  rw [List.Nodup, List.pairwise_map] at hnodup
  exact (hsorted.and hnodup).imp fun h => lt_of_le_of_ne h.1 h.2

theorem mergeSort_eq_of_perm {α : Type} (key : α → Bytes) {xs ys : List α} (hperm : xs.Perm ys)
    (h : (xs.map key).Nodup) :
    (xs.mergeSort fun a b => le (key a) (key b)) = ys.mergeSort fun a b => le (key a) (key b) := by
  have htrans : ∀ a b c : α, le (key a) (key b) = true → le (key b) (key c) = true →
      le (key a) (key c) = true := fun _ _ _ => le_trans
  have htotal : ∀ a b : α, (le (key a) (key b) || le (key b) (key a)) = true :=
    fun a b => le_total (key a) (key b)
  have hxs := List.mergeSort_perm xs fun a b => le (key a) (key b)
  have hys := List.mergeSort_perm ys fun a b => le (key a) (key b)
  apply List.Perm.eq_of_pairwise ?_ (List.pairwise_mergeSort htrans htotal xs)
    (List.pairwise_mergeSort htrans htotal ys) (hxs.trans (hperm.trans hys.symm))
  intro a b ha hb hab hba
  have ha : a ∈ xs := hxs.mem_iff.1 ha
  have hb : b ∈ xs := hperm.mem_iff.2 (hys.mem_iff.1 hb)
  exact List.inj_on_of_nodup_map h ha hb (le_antisymm hab hba)

/-! ## Numbers at the end of a name -/

theorem ofString_injective {s t : String} (h : ofString s = ofString t) : s = t :=
  String.toByteArray_inj.1 (ByteArray.ext (Array.toList_inj.1 h))

theorem ofNat_injective {m n : Nat} (h : ofNat m = ofNat n) : m = n := by
  have hstring : toString m = toString n := ofString_injective h
  rw [Nat.toString_eq_ofList_toDigits, Nat.toString_eq_ofList_toDigits, String.ofList_inj] at hstring
  simpa using congrArg (fun digits => Nat.ofDigitChars 10 digits 0) hstring

theorem ofString_ofList (cs : List Char) :
    ofString (String.ofList cs) = cs.flatMap String.utf8EncodeChar := by
  simp [ofString, List.utf8Encode]

theorem ofNat_ne_nil (n : Nat) : ofNat n ≠ [] := by
  rw [ofNat, Nat.toString_eq_ofList_toDigits, ofString_ofList]
  intro h
  obtain ⟨c, cs, hdigits⟩ := List.exists_cons_of_ne_nil (Nat.toDigits_ne_nil (n := n) (b := 10))
  have hone := List.flatMap_eq_nil_iff.1 h c (hdigits ▸ List.mem_cons_self)
  exact String.utf8EncodeChar_ne_nil hone

theorem isDigit_of_mem_utf8EncodeChar {c : Char} (h : c.isDigit = true) :
    ∀ b ∈ String.utf8EncodeChar c, isDigit b = true := by
  have hlow : 48 ≤ c.val.toNat := by
    simpa [UInt32.le_iff_toNat_le] using (Bool.and_eq_true_iff.1 h).1
  have hhigh : c.val.toNat ≤ 57 := by
    simpa [UInt32.le_iff_toNat_le] using (Bool.and_eq_true_iff.1 h).2
  have hencode : String.utf8EncodeChar c = [UInt8.ofNat c.val.toNat] := if_pos (by omega)
  have hzero : '0'.toUInt8.toNat = 48 := by decide
  have hnine : '9'.toUInt8.toNat = 57 := by decide
  rw [hencode]
  intro b hb
  rw [List.mem_singleton.1 hb, isDigit, Bool.and_eq_true, decide_eq_true_eq, decide_eq_true_eq,
    UInt8.le_iff_toNat_le, UInt8.le_iff_toNat_le, hzero, hnine, UInt8.toNat_ofNat']
  omega

theorem isDigit_of_mem_ofNat (n : Nat) : ∀ c ∈ ofNat n, isDigit c = true := by
  rw [ofNat, Nat.toString_eq_ofList_toDigits, ofString_ofList]
  intro b hb
  obtain ⟨c, hc, hb⟩ := List.mem_flatMap.1 hb
  exact isDigit_of_mem_utf8EncodeChar (Nat.isDigit_of_mem_toDigits (by omega) (by omega) hc) b hb

/-- A number can be told from the text before it when that does not end in a digit. -/
theorem append_ofNat_inj {s t : Bytes} {m n : Nat} (hs : ∀ c ∈ s.getLast?, isDigit c = false)
    (ht : ∀ c ∈ t.getLast?, isDigit c = false) (h : s ++ ofNat m = t ++ ofNat n) :
    s = t ∧ m = n := by
  have htext {u : Bytes} {k : Nat} (hu : ∀ c ∈ u.getLast?, isDigit c = false) :
      (u ++ ofNat k).reverse.dropWhile isDigit = u.reverse := by
    rw [List.reverse_append, List.dropWhile_append_of_pos
      fun c hc => isDigit_of_mem_ofNat k c (List.mem_reverse.1 hc)]
    rw [← List.head?_reverse] at hu
    cases hrev : u.reverse with
    | nil => rfl
    | cons c rest => rw [List.dropWhile_cons, hu c (by rw [hrev]; rfl), if_neg Bool.false_ne_true]
  obtain rfl : s = t := by
    have hreverse := (htext hs).symm.trans (h ▸ htext ht)
    exact List.reverse_injective hreverse
  exact ⟨rfl, ofNat_injective (List.append_cancel_left h)⟩

/-! ## Occurrences -/

theorem indexOf?_singleton (s : Bytes) (c : UInt8) : (indexOf? s [c]).isSome = s.contains c := by
  induction s with
  | nil => rfl
  | cons d s ih =>
      rw [indexOf?]
      by_cases hd : c = d
      · subst hd
        simp [startsWith]
      · simp [startsWith, ih, hd]

theorem includes_singleton {s : Bytes} {c : UInt8} : includes s [c] = true ↔ c ∈ s := by
  rw [includes, indexOf?_singleton, List.contains_iff_mem]

/-- The number of places at which a text goes on with another one. -/
def occurrences (needle : Bytes) : Bytes → Nat
  | [] => 0
  | c :: s => (if startsWith (c :: s) needle then 1 else 0) + occurrences needle s

/-- A text starts in a piece and ends in it, when what comes after the piece is a byte that the text
does not hold. -/
theorem startsWith_append_cons {needle : Bytes} {c : UInt8} (hc : c ∉ needle) (s t : Bytes) :
    startsWith (s ++ c :: t) needle = startsWith s needle := by
  rw [Bool.eq_iff_iff, startsWith, startsWith, List.isPrefixOf_iff_prefix,
    List.isPrefixOf_iff_prefix]
  constructor
  · intro h
    rcases Nat.le_total needle.length s.length with hle | hle
    · exact List.prefix_of_prefix_length_le h (List.prefix_append s _) hle
    · rcases Nat.lt_or_eq_of_le hle with hlt | heq
      · have hconcat : s ++ [c] <+: needle :=
          List.prefix_of_prefix_length_le ⟨t, by simp⟩ h (by simpa using Nat.succ_le_of_lt hlt)
        exact absurd (hconcat.subset (by simp)) hc
      · exact List.prefix_of_prefix_length_le h (List.prefix_append s _) heq.ge
  · exact fun h => h.trans (List.prefix_append s _)

theorem occurrences_append_cons {needle : Bytes} (hne : needle ≠ []) {c : UInt8} (hc : c ∉ needle)
    (s t : Bytes) :
    occurrences needle (s ++ c :: t) = occurrences needle s + occurrences needle t := by
  induction s with
  | nil =>
      have hhere : startsWith (c :: t) needle = false := by
        rw [show c :: t = [] ++ c :: t from rfl, startsWith_append_cons hc]
        cases needle with
        | nil => exact absurd rfl hne
        | cons => rfl
      rw [List.nil_append, occurrences, occurrences, hhere, if_neg Bool.false_ne_true]
  | cons d s ih =>
      have hhere : startsWith (d :: (s ++ c :: t)) needle = startsWith (d :: s) needle :=
        startsWith_append_cons hc (d :: s) t
      rw [List.cons_append, occurrences, occurrences, hhere, ih, Nat.add_assoc]

theorem occurrences_eq_zero {needle : Bytes} {c : UInt8} (hc : c ∈ needle) {s : Bytes}
    (hs : c ∉ s) : occurrences needle s = 0 := by
  induction s with
  | nil => rfl
  | cons d s ih =>
      have hhere : startsWith (d :: s) needle = false := by
        rw [Bool.eq_false_iff, Ne, startsWith, List.isPrefixOf_iff_prefix]
        exact fun h => hs (h.subset hc)
      rw [occurrences, hhere, if_neg Bool.false_ne_true,
        ih fun hmem => hs (List.mem_cons_of_mem _ hmem)]

end TagLoom.Bytes

import Mathlib.Order.Bounds.Defs
import TagLoom.Proofs.Bytes.Text
import TagLoom.Suggestion

/-!
# The nearest names

The distance of two texts is computed row by row.  It is the least number of edits, each of one
character at any place, that turn one text into the other; and where no name has the letters of a
misspelled one in order, the names offered are the nearest ones within two edits.
-/

namespace TagLoom.Suggestion

open Utf8 (Rune)

/-! ## Edits -/

/-- One character is put in, taken out or exchanged, at any place. -/
inductive Edit : List Rune → List Rune → Prop
  | insert (before after : List Rune) (x : Rune) : Edit (before ++ after) (before ++ x :: after)
  | delete (before after : List Rune) (x : Rune) : Edit (before ++ x :: after) (before ++ after)
  | substitute (before after : List Rune) (x y : Rune) :
      Edit (before ++ x :: after) (before ++ y :: after)

/-- So many edits, one after the other, turn one text into another. -/
inductive Edits : Nat → List Rune → List Rune → Prop
  | refl (xs : List Rune) : Edits 0 xs xs
  | step {n : Nat} {xs ys zs : List Rune} : Edit xs ys → Edits n ys zs → Edits (n + 1) xs zs

theorem Edit.cons {xs ys : List Rune} (h : Edit xs ys) (z : Rune) : Edit (z :: xs) (z :: ys) := by
  cases h with
  | insert before after x => exact .insert (z :: before) after x
  | delete before after x => exact .delete (z :: before) after x
  | substitute before after x y => exact .substitute (z :: before) after x y

theorem Edit.reverse {xs ys : List Rune} (h : Edit xs ys) : Edit xs.reverse ys.reverse := by
  cases h with
  | insert before after x => simpa using Edit.insert after.reverse before.reverse x
  | delete before after x => simpa using Edit.delete after.reverse before.reverse x
  | substitute before after x y => simpa using Edit.substitute after.reverse before.reverse x y

theorem Edits.cons {n : Nat} {xs ys : List Rune} (h : Edits n xs ys) (z : Rune) :
    Edits n (z :: xs) (z :: ys) := by
  induction h with
  | refl xs => exact .refl (z :: xs)
  | step first _ ih => exact .step (first.cons z) ih

theorem Edits.reverse {n : Nat} {xs ys : List Rune} (h : Edits n xs ys) :
    Edits n xs.reverse ys.reverse := by
  induction h with
  | refl xs => exact .refl xs.reverse
  | step first _ ih => exact .step first.reverse ih

theorem edits_reverse_iff {n : Nat} {xs ys : List Rune} :
    Edits n xs.reverse ys.reverse ↔ Edits n xs ys :=
  ⟨fun h => by simpa using h.reverse, Edits.reverse⟩

/-! ## The least number of edits

By the first characters of both texts: one of them is dropped, or both are. -/

def leastEdits : List Rune → List Rune → Nat
  | [], ys => ys.length
  | x :: xs, [] => (x :: xs).length
  | x :: xs, y :: ys =>
      min (min (leastEdits xs (y :: ys) + 1) (leastEdits (x :: xs) ys + 1))
        (leastEdits xs ys + if x == y then 0 else 1)

@[simp]
theorem leastEdits_nil_left (ys : List Rune) : leastEdits [] ys = ys.length := by
  rw [leastEdits]

@[simp]
theorem leastEdits_nil_right (xs : List Rune) : leastEdits xs [] = xs.length := by
  cases xs <;> simp [leastEdits]

theorem leastEdits_cons_cons (x y : Rune) (xs ys : List Rune) :
    leastEdits (x :: xs) (y :: ys) =
      min (min (leastEdits xs (y :: ys) + 1) (leastEdits (x :: xs) ys + 1))
        (leastEdits xs ys + if x == y then 0 else 1) := by
  rw [leastEdits]

theorem leastEdits_self (xs : List Rune) : leastEdits xs xs = 0 := by
  induction xs with
  | nil => simp
  | cons x xs ih => simp [leastEdits_cons_cons, ih]

theorem edits_leastEdits (xs ys : List Rune) : Edits (leastEdits xs ys) xs ys := by
  fun_induction leastEdits xs ys with
  | case1 ys =>
      induction ys with
      | nil => exact .refl []
      | cons y ys ih => exact .step (.insert [] [] y) (ih.cons y)
  | case2 x xs =>
      induction xs generalizing x with
      | nil => exact .step (.delete [] [] x) (.refl [])
      | cons x' xs ih => exact .step (.delete [] (x' :: xs) x) (ih x')
  | case3 x xs y ys hdelete hinsert hboth =>
      rcases min_choice (min (leastEdits xs (y :: ys) + 1) (leastEdits (x :: xs) ys + 1))
        (leastEdits xs ys + if x == y then 0 else 1) with h | h
      · rw [h]
        rcases min_choice (leastEdits xs (y :: ys) + 1) (leastEdits (x :: xs) ys + 1) with h | h
        · rw [h]
          exact .step (.delete [] xs x) hdelete
        · rw [h]
          exact .step (.insert [] (x :: xs) y) (hinsert.cons y)
      · rw [h]
        by_cases hxy : x = y
        · subst hxy
          simpa using hboth.cons x
        · simpa [hxy] using Edits.step (.substitute [] xs x y) (hboth.cons y)

/-! Fewer are not: an edit saves at most one. -/

theorem leastEdits_cons_right_le (xs ys : List Rune) (y : Rune) :
    leastEdits xs (y :: ys) ≤ leastEdits xs ys + 1 := by
  cases xs with
  | nil => simp
  | cons x xs => rw [leastEdits_cons_cons]; omega

theorem leastEdits_cons_left_le (xs ys : List Rune) (x : Rune) :
    leastEdits (x :: xs) ys ≤ leastEdits xs ys + 1 := by
  cases ys with
  | nil => simp
  | cons y ys => rw [leastEdits_cons_cons]; omega

theorem leastEdits_le_cons_left (xs ys : List Rune) (x : Rune) :
    leastEdits xs ys ≤ leastEdits (x :: xs) ys + 1 := by
  induction ys with
  | nil => simp; omega
  | cons y ys ih =>
      have hdrop := leastEdits_cons_right_le xs ys y
      rw [leastEdits_cons_cons]
      omega

theorem leastEdits_substitute_le (xs ys : List Rune) (x x' : Rune) :
    leastEdits (x :: xs) ys ≤ leastEdits (x' :: xs) ys + 1 := by
  induction ys with
  | nil => simp
  | cons y ys ih =>
      rw [leastEdits_cons_cons, leastEdits_cons_cons]
      split <;> omega

theorem leastEdits_cons_le {xs xs' : List Rune}
    (h : ∀ ys, leastEdits xs ys ≤ leastEdits xs' ys + 1) (x : Rune) (ys : List Rune) :
    leastEdits (x :: xs) ys ≤ leastEdits (x :: xs') ys + 1 := by
  induction ys with
  | nil =>
      have hnil := h []
      simpa using hnil
  | cons y ys ih =>
      have hdelete := h (y :: ys)
      have hboth := h ys
      rw [leastEdits_cons_cons, leastEdits_cons_cons]
      omega

theorem leastEdits_append_le {xs xs' : List Rune}
    (h : ∀ ys, leastEdits xs ys ≤ leastEdits xs' ys + 1) (before ys : List Rune) :
    leastEdits (before ++ xs) ys ≤ leastEdits (before ++ xs') ys + 1 := by
  induction before generalizing ys with
  | nil => exact h ys
  | cons x before ih => exact leastEdits_cons_le ih x ys

theorem leastEdits_le_of_edit {xs xs' : List Rune} (h : Edit xs xs') (ys : List Rune) :
    leastEdits xs ys ≤ leastEdits xs' ys + 1 := by
  cases h with
  | insert before after x =>
      exact leastEdits_append_le (fun ys => leastEdits_le_cons_left after ys x) before ys
  | delete before after x =>
      exact leastEdits_append_le (fun ys => leastEdits_cons_left_le after ys x) before ys
  | substitute before after x x' =>
      exact leastEdits_append_le (fun ys => leastEdits_substitute_le after ys x x') before ys

theorem leastEdits_le_of_edits {n : Nat} {xs ys : List Rune} (h : Edits n xs ys) :
    leastEdits xs ys ≤ n := by
  induction h with
  | refl xs => exact Nat.le_of_eq (leastEdits_self xs)
  | step first _ ih => exact (leastEdits_le_of_edit first _).trans (by omega)

/-! ## Rows

Texts are read from the left, so what has been read of them stands reversed. -/

/-- The distances of a text to another one read so far, and to it with one more character of a
third each time. -/
def distances (xs done : List Rune) : List Rune → List Nat
  | [] => [leastEdits xs done]
  | y :: ys => leastEdits xs done :: distances xs (y :: done) ys

theorem distances_eq_cons (xs done ys : List Rune) :
    ∃ rest, distances xs done ys = leastEdits xs done :: rest := by
  cases ys with
  | nil => exact ⟨[], rfl⟩
  | cons y ys => exact ⟨_, rfl⟩

theorem distances_nil_left (done ys : List Rune) :
    distances [] done ys = List.range' done.length (ys.length + 1) := by
  induction ys generalizing done with
  | nil => simp [distances]
  | cons y ys ih =>
      rw [distances, ih, leastEdits_nil_left, List.length_cons, List.length_cons,
        ← List.range'_succ]

theorem rowCells_distances (x : Rune) (xs done ys : List Rune) :
    leastEdits (x :: xs) done :: rowCells x (leastEdits (x :: xs) done) ys (distances xs done ys) =
      distances (x :: xs) done ys := by
  induction ys generalizing done with
  | nil => rfl
  | cons y ys ih =>
      obtain ⟨rest, hrest⟩ := distances_eq_cons xs (y :: done) ys
      rw [distances, distances, ← ih (y :: done), hrest, rowCells, ← leastEdits_cons_cons]

theorem nextRow_distances (x : Rune) (xs ys : List Rune) :
    nextRow ys (distances xs [] ys) x = distances (x :: xs) [] ys := by
  obtain ⟨rest, hrest⟩ := distances_eq_cons xs [] ys
  have hfirst : (distances xs [] ys).headD 0 + 1 = leastEdits (x :: xs) [] := by simp [hrest]
  rw [nextRow, hfirst, rowCells_distances]

theorem foldl_nextRow (xs done ys : List Rune) :
    xs.foldl (nextRow ys) (distances done [] ys) = distances (xs.reverse ++ done) [] ys := by
  induction xs generalizing done with
  | nil => rfl
  | cons x xs ih => rw [List.foldl_cons, nextRow_distances, ih]; simp

theorem getLastD_distances (xs done ys : List Rune) :
    (distances xs done ys).getLastD 0 = leastEdits xs (ys.reverse ++ done) := by
  induction ys generalizing done with
  | nil => rfl
  | cons y ys ih =>
      obtain ⟨rest, hrest⟩ := distances_eq_cons xs (y :: done) ys
      have hlast := ih (y :: done)
      rw [hrest, List.getLastD_cons] at hlast
      rw [distances, hrest, List.getLastD_cons, List.getLastD_cons, hlast, List.reverse_cons,
        List.append_assoc, List.singleton_append]

theorem editDistance_eq (a b : Bytes) :
    editDistance a b = leastEdits (Utf8.runes a).reverse (Utf8.runes b).reverse := by
  have hstart : List.range ((Utf8.runes b).length + 1) = distances [] [] (Utf8.runes b) := by
    rw [distances_nil_left, List.range_eq_range']; rfl
  rw [editDistance, hstart, foldl_nextRow, getLastD_distances, List.append_nil, List.append_nil]

theorem isLeast_editDistance (a b : Bytes) :
    IsLeast {n | Edits n (Utf8.runes a) (Utf8.runes b)} (editDistance a b) := by
  rw [editDistance_eq]
  constructor
  · exact edits_reverse_iff.1 (edits_leastEdits _ _)
  · intro n h
    exact leastEdits_le_of_edits (edits_reverse_iff.2 h)

theorem editDistance_self (a : Bytes) : editDistance a a = 0 := by
  rw [editDistance_eq, leastEdits_self]

theorem runes_eq_of_editDistance_eq_zero {a b : Bytes} (h : editDistance a b = 0) :
    Utf8.runes a = Utf8.runes b := by
  have hedits : Edits (editDistance a b) (Utf8.runes a) (Utf8.runes b) :=
    (isLeast_editDistance a b).1
  rw [h] at hedits
  generalize Utf8.runes a = xs, Utf8.runes b = ys at hedits
  cases hedits with
  | refl => rfl

/-! ## Letters in order -/

theorem sameLetter_self (r : Rune) : sameLetter r r = true := beq_self_eq_true _

theorem matchBonus_nonneg {st : Alignment} (h : 0 ≤ st.run) (r : Rune) (offset : Nat) :
    0 ≤ (matchBonus st r offset).1 ∧ 0 ≤ (matchBonus st r offset).2 := by
  have hadjacent : 0 ≤ (matchBonus st r offset).2 := by
    unfold matchBonus
    dsimp only
    split
    · split <;> omega
    · exact Int.le_refl 0
  refine ⟨?_, hadjacent⟩
  unfold matchBonus at hadjacent ⊢
  dsimp only at hadjacent ⊢
  refine Int.add_nonneg ?_ hadjacent
  refine Int.add_nonneg (Int.add_nonneg ?_ ?_) ?_ <;> split <;> omega

/-- An alignment that has placed the letters before the ones still due. -/
structure Fresh (st : Alignment) (letters : List Rune) : Prop where
  pattern : st.pattern = letters
  best : st.best = -1
  run : 0 ≤ st.run

theorem fresh_alignStep {st : Alignment} {r : Rune} {letters : List Rune}
    (h : Fresh st (r :: letters)) (offset : Nat) :
    Fresh (alignStep st r offset letters.head?) letters ∧
      (alignStep st r offset letters.head?).placed.length = st.placed.length + 1 := by
  obtain ⟨hpattern, hbest, hrun⟩ := h
  obtain ⟨hscore, hbonus⟩ := matchBonus_nonneg hrun r offset
  have hbetter : (matchBonus st r offset).1 > st.best := by omega
  cases letters with
  | nil =>
      simp only [alignStep, hpattern, sameLetter_self, if_true, hbetter, List.head?_nil]
      exact ⟨⟨rfl, rfl, Int.add_nonneg hrun hbonus⟩, rfl⟩
  | cons p letters =>
      simp only [alignStep, hpattern, sameLetter_self, if_true, hbetter, List.head?_cons]
      exact ⟨⟨rfl, rfl, Int.add_nonneg hrun hbonus⟩, rfl⟩

theorem length_placed_alignFrom {st : Alignment} {cells : List (Rune × Nat)}
    (h : Fresh st (cells.map (·.1))) (offset : Nat) :
    (alignFrom st offset cells).placed.length = st.placed.length + cells.length := by
  induction cells generalizing st offset with
  | nil => rfl
  | cons cell cells ih =>
      obtain ⟨hfresh, hplaced⟩ := fresh_alignStep h offset
      rw [List.head?_map] at hfresh hplaced
      rw [alignFrom, ih hfresh, hplaced, List.length_cons]
      omega

theorem score?_isSome {pattern name : Bytes} (h : Utf8.runes pattern = Utf8.runes name) :
    (score? pattern name).isSome := by
  have hfresh : Fresh ⟨Utf8.runes pattern, [], 0, -1, none, 0, 0, 0⟩ ((Utf8.scan name).map (·.1)) :=
    ⟨h, rfl, Int.le_refl 0⟩
  have hplaced := length_placed_alignFrom hfresh 0
  have hlength : (Utf8.runes pattern).length = (Utf8.scan name).length := by
    rw [h, Utf8.runes, List.length_map]
  rw [score?]
  simp [hplaced, hlength]

theorem inOrder_eq_nil_iff {pattern : Bytes} {names : List Bytes} :
    inOrder pattern names = [] ↔ ∀ n ∈ names, score? pattern n = none := by
  rw [inOrder, List.map_eq_nil_iff, ← List.length_eq_zero_iff, List.length_mergeSort,
    List.length_eq_zero_iff]
  simp

/-- A matcher finds something where a name has the same characters as the text. -/
def Matcher.FindsSame (find : Matcher) : Prop :=
  ∀ name names, ∀ n ∈ names, Utf8.runes name = Utf8.runes n → find name names ≠ []

theorem findsSame_inOrder : Matcher.FindsSame inOrder := by
  intro name names n hn hsame hnone
  have hscore := score?_isSome hsame
  rw [inOrder_eq_nil_iff.1 hnone n hn] at hscore
  cases hscore

variable {find : Matcher}

theorem editDistance_ne_zero (hfind : find.FindsSame) {name : Bytes} {names : List Bytes}
    (h : find name names = []) {n : Bytes} (hn : n ∈ names) : editDistance name n ≠ 0 :=
  fun hzero => hfind name names n hn (runes_eq_of_editDistance_eq_zero hzero) h

/-! ## Names within reach -/

/-- One name is not behind another: it is fewer edits away, or as many and not later by name. -/
def NotBehind (name a b : Bytes) : Prop :=
  editDistance name a < editDistance name b ∨
    editDistance name a = editDistance name b ∧ Bytes.le a b = true

instance (name a b : Bytes) : Decidable (NotBehind name a b) :=
  inferInstanceAs (Decidable (_ ∨ _))

theorem notBehind_total (name a b : Bytes) : NotBehind name a b ∨ NotBehind name b a := by
  rcases Nat.lt_trichotomy (editDistance name a) (editDistance name b) with h | h | h
  · exact Or.inl (Or.inl h)
  · rcases Bool.or_eq_true_iff.1 (Bytes.le_total a b) with hle | hle
    · exact Or.inl (Or.inr ⟨h, hle⟩)
    · exact Or.inr (Or.inr ⟨h.symm, hle⟩)
  · exact Or.inr (Or.inl h)

theorem notBehind_trans {name a b c : Bytes} (hab : NotBehind name a b) (hbc : NotBehind name b c) :
    NotBehind name a c := by
  rcases hab with hab | ⟨hab, hleft⟩
  · rcases hbc with hbc | ⟨hbc, -⟩
    · exact Or.inl (hab.trans hbc)
    · exact Or.inl (hbc ▸ hab)
  · rcases hbc with hbc | ⟨hbc, hright⟩
    · exact Or.inl (hab ▸ hbc)
    · exact Or.inr ⟨hab.trans hbc, Bytes.le_trans hleft hright⟩

structure IsRanking (name : Bytes) (names ranked : List Bytes) : Prop where
  perm : ranked.Perm names
  ordered : ranked.Pairwise (NotBehind name)

theorem isRanking_mergeSort (name : Bytes) (names : List Bytes) :
    IsRanking name names (names.mergeSort fun a b => NotBehind name a b) where
  perm := List.mergeSort_perm _ _
  ordered := by
    have hsorted : (names.mergeSort fun a b => NotBehind name a b).Pairwise fun a b =>
        decide (NotBehind name a b) = true := by
      refine List.pairwise_mergeSort (fun a b c => ?_) (fun a b => ?_) names
      · simpa using notBehind_trans
      · simpa using notBehind_total name a b
    simpa using hsorted

theorem nearby_eq (name : Bytes) (names : List Bytes) :
    nearby name names = (names.filter fun n => editDistance name n ≤ maxEdits).mergeSort fun a b =>
      NotBehind name a b := by
  have hscored : (names.filterMap fun n =>
      let d := editDistance name n
      if d ≤ maxEdits then some (d, n) else none) =
        (names.filter fun n => editDistance name n ≤ maxEdits).map fun n =>
          (editDistance name n, n) := by
    induction names with
    | nil => rfl
    | cons n names ih => by_cases hn : editDistance name n ≤ maxEdits <;> simp_all
  rw [nearby, hscored, ← List.map_mergeSort (r := fun a b => NotBehind name a b)
    (fun a _ b _ => by rw [Bool.eq_iff_iff, decide_eq_true_iff]; simp [NotBehind])]
  simp [Function.comp_def]

theorem suggestBy_of_find_eq_nil (hfind : find.FindsSame) {name : Bytes} {names : List Bytes}
    (hname : name ≠ []) (h : find name names = []) :
    ∃ ranked, IsRanking name
      (names.filter fun n => editDistance name n = 1 ∨ editDistance name n = 2) ranked ∧
      suggestBy find name names = ranked.take 3 := by
  have hreach : (names.filter fun n => editDistance name n ≤ maxEdits) =
      names.filter fun n => editDistance name n = 1 ∨ editDistance name n = 2 := by
    apply List.filter_congr
    intro n hn
    have hother := editDistance_ne_zero hfind h hn
    rw [decide_eq_decide, maxEdits]
    omega
  have hother : (nearby name names).filter (· != name) = nearby name names := by
    rw [List.filter_eq_self]
    intro n hn
    rw [nearby_eq, List.mem_mergeSort] at hn
    rw [bne_iff_ne]
    rintro rfl
    exact editDistance_ne_zero hfind h (List.mem_of_mem_filter hn) (editDistance_self n)
  refine ⟨nearby name names, ?_, ?_⟩
  · rw [nearby_eq, hreach]
    exact isRanking_mergeSort name _
  · rw [suggestBy, h, if_neg (by simpa using hname)]
    exact congrArg (List.take 3) hother

/-- What is offered for a misspelled name.  The distance of two texts is the least number of edits
that turn one into the other; and where nothing matches the misspelled name, the names one or two
edits away are offered, nearest first and then by name, up to three: with the matcher in use, which
looks for the letters in order, and with any other that finds what has the same characters. -/
theorem editDistance_least_and_suggest_nearest :
    (∀ a b, IsLeast {n | Edits n (Utf8.runes a) (Utf8.runes b)} (editDistance a b)) ∧
      (∀ name names, name ≠ [] → inOrder name names = [] →
        ∃ ranked, IsRanking name
          (names.filter fun n => editDistance name n = 1 ∨ editDistance name n = 2) ranked ∧
          suggest name names = ranked.take 3) ∧
      ∀ find : Matcher, find.FindsSame → ∀ name names, name ≠ [] → find name names = [] →
        ∃ ranked, IsRanking name
          (names.filter fun n => editDistance name n = 1 ∨ editDistance name n = 2) ranked ∧
          suggestBy find name names = ranked.take 3 :=
  ⟨isLeast_editDistance, fun _ _ => suggestBy_of_find_eq_nil findsSame_inOrder,
    fun _ hfind _ _ => suggestBy_of_find_eq_nil hfind⟩

/-- Names one edit off, two edits off and out of reach, one of them twice. -/
def partNames : List Bytes := ["Trade", "Brand", "Brad", "Button", "Trad", "Brad"]

def same : Matcher := fun name names => names.filter fun n => Utf8.runes name = Utf8.runes n

theorem findsSame_same : same.FindsSame := fun _ _ _ hn hsame =>
  List.ne_nil_of_mem (List.mem_filter.2 ⟨hn, by simpa using hsame⟩)

theorem suggest_nearest_crad :
    ("Crad" : Bytes) ≠ [] ∧ inOrder "Crad" partNames = [] ∧ same "Crad" partNames = [] ∧
      IsLeast {n | Edits n (Utf8.runes "Crad") (Utf8.runes "Brand")} 2 ∧
      (∃ ranked, IsRanking "Crad" ["Trade", "Brand", "Brad", "Trad", "Brad"] ranked ∧
        suggest "Crad" partNames = ranked.take 3) ∧
      ∃ ranked, IsRanking "Crad" ["Trade", "Brand", "Brad", "Trad", "Brad"] ranked ∧
        suggestBy same "Crad" partNames = ranked.take 3 := by
  have hname : ("Crad" : Bytes) ≠ [] := by decide
  have hinOrder : inOrder "Crad" partNames = [] := inOrder_eq_nil_iff.2 (by decide +kernel)
  have hsame : same "Crad" partNames = [] := by decide +kernel
  have hdistance : editDistance "Crad" "Brand" = 2 := by decide +kernel
  have hfilter : (partNames.filter fun n => editDistance "Crad" n = 1 ∨ editDistance "Crad" n = 2) =
      ["Trade", "Brand", "Brad", "Trad", "Brad"] := by
    decide +kernel
  obtain ⟨hleast, hinUse, hany⟩ := editDistance_least_and_suggest_nearest
  have hinUse := hinUse "Crad" partNames hname hinOrder
  have hany := hany same findsSame_same "Crad" partNames hname hsame
  rw [hfilter] at hinUse hany
  exact ⟨hname, hinOrder, hsame, hdistance ▸ hleast "Crad" "Brand", hinUse, hany⟩

end TagLoom.Suggestion

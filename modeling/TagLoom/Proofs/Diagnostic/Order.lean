import TagLoom.Diagnostic
import TagLoom.Proofs.Bytes.Text

/-!
# Lists of reports

Whether a list has errors is decided part by part.  Sorting a list gives the same reports by file,
line and column, and leaves reports at one place in the order they were given.
-/

namespace TagLoom

namespace Diagnostic

/-! ## Errors in lists -/

theorem hasErrors_append (a b : List Diagnostic) :
    hasErrors (a ++ b) = false ↔ hasErrors a = false ∧ hasErrors b = false := by
  simp [hasErrors, List.any_append]

theorem hasErrors_flatMap {α : Type} {f : α → List Diagnostic} {xs : List α} :
    hasErrors (xs.flatMap f) = false ↔ ∀ x ∈ xs, hasErrors (f x) = false := by
  induction xs with
  | nil => simp [hasErrors]
  | cons x xs ih => rw [List.flatMap_cons, hasErrors_append, ih, List.forall_mem_cons]

theorem eq_nil_of_not_hasErrors {ds : List Diagnostic} (hds : ∀ d ∈ ds, d.isError = true)
    (h : hasErrors ds = false) : ds = [] := by
  cases ds with
  | nil => rfl
  | cons d ds => simp [hasErrors, hds d] at h

theorem hasErrors_eq_false {ds : List Diagnostic} :
    hasErrors ds = false ↔ ∀ d ∈ ds, d.isError = false := by
  simp [hasErrors]

theorem hasErrors_perm {ds es : List Diagnostic} (h : ds.Perm es) : hasErrors ds = hasErrors es := by
  rw [Bool.eq_iff_iff]
  simp [hasErrors, h.mem_iff]

/-! ## Order by place -/

def samePlace (d e : Diagnostic) : Bool :=
  d.file == e.file && d.line == e.line && d.column == e.column

theorem le_iff (d e : Diagnostic) :
    le d e = true ↔ Bytes.lt d.file e.file = true ∨ d.file = e.file ∧
      (d.line < e.line ∨ d.line = e.line ∧ d.column ≤ e.column) := by
  unfold le
  by_cases hfile : d.file = e.file
  · simp only [hfile, bne_self_eq_false, Bool.false_eq_true, if_false, Bytes.lt_irrefl, false_or,
      true_and]
    by_cases hline : d.line = e.line
    · simp [hline]
    · simp [hline]
  · simp [hfile]

theorem le_total (d e : Diagnostic) : (le d e || le e d) = true := by
  rw [Bool.or_eq_true, le_iff, le_iff]
  rcases Bytes.lt_or_eq_or_lt d.file e.file with hlt | heq | hgt
  · exact .inl (.inl hlt)
  · have hplaces : (d.line < e.line ∨ d.line = e.line ∧ d.column ≤ e.column) ∨
        (e.line < d.line ∨ e.line = d.line ∧ e.column ≤ d.column) := by omega
    exact hplaces.imp (fun h => .inr ⟨heq, h⟩) fun h => .inr ⟨heq.symm, h⟩
  · exact .inr (.inl hgt)

theorem le_trans (c d e : Diagnostic) (hcd : le c d = true) (hde : le d e = true) :
    le c e = true := by
  rw [le_iff] at hcd hde ⊢
  rcases hcd with hcd | ⟨hcd, hcd'⟩
  · rcases hde with hde | ⟨hde, -⟩
    · exact Or.inl (Bytes.lt_trans hcd hde)
    · exact Or.inl (hde ▸ hcd)
  · rcases hde with hde | ⟨hde, hde'⟩
    · exact Or.inl (hcd ▸ hde)
    · exact Or.inr ⟨hcd.trans hde, by omega⟩

theorem samePlace_iff {d e : Diagnostic} :
    samePlace d e = true ↔ d.file = e.file ∧ d.line = e.line ∧ d.column = e.column := by
  simp [samePlace, and_assoc]

theorem samePlace_of_le_of_le {d e : Diagnostic} (hde : le d e = true) (hed : le e d = true) :
    samePlace d e = true := by
  rw [le_iff] at hde hed
  have hfile : d.file = e.file := by
    rcases hde with hlt | ⟨hfile, -⟩
    · rcases hed with hgt | ⟨hfile, -⟩
      · have habsurd := Bytes.lt_trans hlt hgt
        rw [Bytes.lt_irrefl] at habsurd
        cases habsurd
      · exact hfile.symm
    · exact hfile
  simp only [hfile, Bytes.lt_irrefl, Bool.false_eq_true, false_or, true_and] at hde hed
  apply samePlace_iff.2
  constructor
  · exact hfile
  · omega

theorem le_of_samePlace {d e : Diagnostic} (h : samePlace d e = true) : le d e = true := by
  obtain ⟨hfile, hline, hcolumn⟩ := samePlace_iff.1 h
  exact (le_iff d e).2 (Or.inr ⟨hfile, Or.inr ⟨hline, Int.le_of_eq hcolumn⟩⟩)

/-- A list of the same reports by place, reports at one place in the order they were given. -/
structure IsStableSort (given sorted : List Diagnostic) : Prop where
  perm : sorted.Perm given
  ordered : sorted.Pairwise fun d e => le d e = true
  stable : ∀ d, sorted.filter (samePlace d) = given.filter (samePlace d)

theorem isStableSort_sort (ds : List Diagnostic) : IsStableSort ds (sort ds) := by
  have hperm : (sort ds).Perm ds := List.mergeSort_perm ds le
  refine ⟨hperm, List.pairwise_mergeSort le_trans le_total ds, fun d => ?_⟩
  have hplace : (ds.filter (samePlace d)).Pairwise fun a b => le a b = true := by
    refine List.pairwise_of_forall_mem_list fun a ha b hb => le_of_samePlace ?_
    have ha := samePlace_iff.1 (List.mem_filter.1 ha).2
    have hb := samePlace_iff.1 (List.mem_filter.1 hb).2
    exact samePlace_iff.2
      ⟨ha.1.symm.trans hb.1, ha.2.1.symm.trans hb.2.1, ha.2.2.symm.trans hb.2.2⟩
  have hsub : (ds.filter (samePlace d)).Sublist (sort ds) :=
    List.sublist_mergeSort le_trans le_total hplace List.filter_sublist
  have hfilter := hsub.filter (samePlace d)
  rw [List.filter_filter] at hfilter
  simp only [Bool.and_self] at hfilter
  exact (hfilter.eq_of_length (hperm.filter _).length_eq.symm).symm

/-! ## Lists in another order -/

theorem mem_filter_samePlace {d : Diagnostic} {ds : List Diagnostic} :
    d ∈ ds.filter (samePlace d) ↔ d ∈ ds := by
  simp [samePlace]

/-- In order of place, a list is known by what it has at each place. -/
theorem eq_of_ordered {ds es : List Diagnostic} (hds : ds.Pairwise fun d e => le d e = true)
    (hes : es.Pairwise fun d e => le d e = true)
    (h : ∀ d, ds.filter (samePlace d) = es.filter (samePlace d)) : ds = es := by
  have hmem (d : Diagnostic) : d ∈ ds ↔ d ∈ es := by
    rw [← mem_filter_samePlace, h, mem_filter_samePlace]
  induction ds generalizing es with
  | nil =>
      symm
      simpa [List.eq_nil_iff_forall_not_mem] using hmem
  | cons x ds ih =>
      cases es with
      | nil => simpa using hmem x
      | cons y es =>
          rw [List.pairwise_cons] at hds hes
          have hxy : le x y = true := by
            rcases List.mem_cons.1 ((hmem y).2 List.mem_cons_self) with rfl | hy
            · simpa using le_total y y
            · exact hds.1 y hy
          have hyx : le y x = true := by
            rcases List.mem_cons.1 ((hmem x).1 List.mem_cons_self) with rfl | hx
            · simpa using le_total x x
            · exact hes.1 x hx
          have hplace : samePlace x y = true := samePlace_of_le_of_le hxy hyx
          have hfirst := h x
          rw [List.filter_cons_of_pos (by simp [samePlace]), List.filter_cons_of_pos hplace] at hfirst
          obtain ⟨rfl, -⟩ := List.cons.inj hfirst
          have htail (d : Diagnostic) : ds.filter (samePlace d) = es.filter (samePlace d) := by
            have hd := h d
            rw [List.filter_cons, List.filter_cons] at hd
            split at hd
            · exact (List.cons.inj hd).2
            · exact hd
          rw [ih hds.2 hes.2 htail fun d => by
            rw [← mem_filter_samePlace, htail, mem_filter_samePlace]]

theorem sort_congr {ds es : List Diagnostic}
    (h : ∀ d, ds.filter (samePlace d) = es.filter (samePlace d)) : sort ds = sort es := by
  have hds := isStableSort_sort ds
  have hes := isStableSort_sort es
  apply eq_of_ordered hds.ordered hes.ordered
  intro d
  rw [hds.stable, hes.stable, h]

/-- Reports on different files can be listed file by file in any order: at each place they are the
same. -/
theorem filter_flatMap_perm {α : Type} {f : α → List Diagnostic} {file : α → Bytes} {xs ys : List α}
    (hperm : xs.Perm ys) (hnodup : (xs.map file).Nodup)
    (hfile : ∀ x ∈ xs, ∀ d ∈ f x, d.file = file x) (d : Diagnostic) :
    (xs.flatMap f).filter (samePlace d) = (ys.flatMap f).filter (samePlace d) := by
  induction hperm with
  | nil => rfl
  | cons x _ ih =>
      rw [List.map_cons, List.nodup_cons] at hnodup
      rw [List.flatMap_cons, List.flatMap_cons, List.filter_append, List.filter_append,
        ih hnodup.2 fun y hy => hfile y (List.mem_cons_of_mem x hy)]
  | swap x y l =>
      -- of two different files one is not the report's
      have hne : file x ≠ file y := by
        intro heq
        simp [heq] at hnodup
      have hnone (z : α) (hz : z ∈ y :: x :: l) (hdz : d.file ≠ file z) :
          (f z).filter (samePlace d) = [] := by
        rw [List.filter_eq_nil_iff]
        intro e he hplace
        exact hdz ((samePlace_iff.1 hplace).1.trans (hfile z hz e he))
      simp only [List.flatMap_cons, List.filter_append]
      by_cases hx : d.file = file x
      · simp [hnone y (by simp) fun hy => hne (hx.symm.trans hy)]
      · simp [hnone x (by simp) hx]
  | trans hxy _ ihxy ihyz =>
      rw [ihxy hnodup hfile]
      apply ihyz
      · exact (hxy.map file).nodup_iff.1 hnodup
      · intro y hy
        exact hfile y (hxy.mem_iff.2 hy)

end Diagnostic

end TagLoom

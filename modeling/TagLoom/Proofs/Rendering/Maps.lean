import TagLoom.Page
import TagLoom.Proofs.Bytes.Text

/-!
# Loops over maps

A map lists its keys in any order, and a loop goes through them in the order of their texts.  That is
one order for all listings exactly when no two keys have one text.  A key that the map does not find
breaks the loop off.
-/

namespace TagLoom

variable {β : Type}

namespace Value

/-! ## Maps -/

def rows? : Value β → Option (List (Key × Value β))
  | .record entries => some (entries.map fun (k, v) => (.text k, v))
  | .table _ entries => some entries
  | _ => none

def rowEntry (row : Key × Value β) : Value β × Value β := (row.1.toValue, row.2)

/-- Two maps have the same keys with the same values, in whatever orders they list them. -/
inductive Relisted : Value β → Value β → Prop
  | record {entries entries' : List (Bytes × Value β)} (h : entries.Perm entries') :
      Relisted (.record entries) (.record entries')
  | table {kind} {entries entries' : List (Key × Value β)} (h : entries.Perm entries') :
      Relisted (.table kind entries) (.table kind entries')

variable {v w : Value β} {rows : List (Key × Value β)}

theorem entries?_of_rows? (h : v.rows? = some rows) :
    v.entries? = some (byKeyText (rows.map rowEntry)) := by
  cases v with
  | record entries =>
      cases h
      rw [entries?, List.map_map]
      rfl
  | table kind entries =>
      cases h
      rfl
  | _ => cases h

theorem losesKey_of_rows? (h : v.rows? = some rows) :
    v.losesKey = rows.any fun row => !row.1.same row.1 := by
  cases v with
  | record entries =>
      cases h
      have hfound : ((entries.map fun (k, v) => ((.text k, v) : Key × Value β)).any
          fun row => !row.1.same row.1) = false := by
        simp [Key.same]
      exact hfound.symm
  | table kind entries =>
      cases h
      rfl
  | _ => cases h

theorem Relisted.rows? (h : Relisted v w) (hv : v.rows? = some rows) :
    ∃ rows', w.rows? = some rows' ∧ rows.Perm rows' := by
  cases h with
  | record h =>
      cases hv
      exact ⟨_, rfl, h.map _⟩
  | table h =>
      cases hv
      exact ⟨_, rfl, h⟩

theorem exists_relisted_reverse (hv : v.rows? = some rows) :
    ∃ w, Relisted v w ∧ w.rows? = some rows.reverse := by
  cases v with
  | record entries =>
      cases hv
      exact ⟨_, .record (List.reverse_perm _).symm, congrArg some List.map_reverse⟩
  | table kind entries =>
      cases hv
      exact ⟨_, .table (List.reverse_perm _).symm, rfl⟩
  | _ => cases hv

/-! ## The order of a loop -/

theorem rowEntry_injective : Function.Injective (rowEntry : Key × Value β → Value β × Value β) := by
  rintro ⟨k, v⟩ ⟨l, w⟩ h
  obtain ⟨hkey, rfl⟩ := Prod.mk.inj h
  cases k <;> cases l <;> cases hkey <;> rfl

private theorem not_sublist_swap {γ : Type} {xs : List γ} (h : xs.Nodup) {a b : γ}
    (hab : [a, b].Sublist xs) : ¬ [b, a].Sublist xs := by
  induction xs with
  | nil => cases hab
  | cons x xs ih =>
      rw [List.nodup_cons] at h
      intro hba
      cases hab with
      | cons _ hab =>
          cases hba with
          | cons _ hba => exact ih h.2 hab hba
          | cons_cons _ hba => exact h.1 (hab.subset (by simp))
      | cons_cons _ hb =>
          cases hba with
          | cons _ hba => exact h.1 (hba.subset (by simp))
          | cons_cons _ hba => exact h.1 (hb.subset (by simp))

variable {pairs : List (Value β × Value β)}

theorem le_trans_keyText (a b c : Value β × Value β) (hab : Bytes.le a.1.toText b.1.toText = true)
    (hbc : Bytes.le b.1.toText c.1.toText = true) : Bytes.le a.1.toText c.1.toText = true :=
  Bytes.le_trans hab hbc

theorem pairwise_byKeyText (pairs : List (Value β × Value β)) :
    (byKeyText pairs).Pairwise fun a b => Bytes.le a.1.toText b.1.toText = true :=
  List.pairwise_mergeSort le_trans_keyText (fun a b => Bytes.le_total a.1.toText b.1.toText) pairs

theorem sublist_byKeyText {a b : Value β × Value β} (htext : a.1.toText = b.1.toText)
    (h : [a, b].Sublist pairs) : [a, b].Sublist (byKeyText pairs) := by
  have hle : Bytes.le a.1.toText b.1.toText = true := by
    simpa [htext] using Bytes.le_total b.1.toText b.1.toText
  exact List.sublist_mergeSort le_trans_keyText
    (fun a b => Bytes.le_total a.1.toText b.1.toText) (List.pairwise_pair.2 hle) h

theorem nodup_keyTexts_of_reverse (hpairs : pairs.Nodup)
    (h : byKeyText pairs.reverse = byKeyText pairs) : (pairs.map (·.1.toText)).Nodup := by
  rw [List.nodup_iff_sublist]
  intro text htwice
  obtain ⟨two, htwo, htexts⟩ := List.sublist_map_iff.1 htwice
  obtain ⟨a, b, rfl⟩ := List.length_eq_two.1 (by simpa using (congrArg List.length htexts).symm)
  obtain ⟨ha, hb⟩ : text = a.1.toText ∧ text = b.1.toText := by simpa using htexts
  have hab := sublist_byKeyText (ha.symm.trans hb) htwo
  have hba := sublist_byKeyText (hb.symm.trans ha) (by simpa using List.reverse_sublist.2 htwo)
  rw [h] at hba
  exact not_sublist_swap ((List.mergeSort_perm _ _).nodup_iff.2 hpairs) hab hba

end Value

open Value

namespace Page

variable {v : Value β} {rows : List (Key × Value β)} {p : Page}

theorem entries_of_rows (hp : p.failure = none) (hrows : v.rows? = some rows)
    (hfound : ∀ row ∈ rows, row.1.same row.1 = true) :
    p.entries v = (byKeyText (rows.map rowEntry), p) := by
  have hkeeps : v.losesKey = false := by
    rw [losesKey_of_rows? hrows, List.any_eq_false]
    simpa using hfound
  rw [entries, hp, entries?_of_rows? hrows]
  simp only [hkeeps, Bool.false_eq_true, if_false]

theorem entries_of_losesKey (hp : p.failure = none) (hrows : v.rows? = some rows)
    (hlost : ∃ row ∈ rows, row.1.same row.1 = false) :
    ∃ message, p.entries v = ([], p.fail (.crash message)) := by
  have hloses : v.losesKey = true := by
    rw [losesKey_of_rows? hrows, List.any_eq_true]
    simpa using hlost
  rw [entries, hp, entries?_of_rows? hrows]
  simp only [hloses, if_true]
  exact ⟨_, rfl⟩

/-- A loop over a map, whose keys are different keys, goes through each of them once, with its own
value, in the order of their texts, if the map finds all its keys; and through the same entries in
whatever order the map lists its keys exactly when no two keys have one text.  If the map does not
find one of its keys, the loop breaks the program off. -/
theorem entries_relisted_iff (hp : p.failure = none) (hrows : v.rows? = some rows)
    (hkeys : rows.Pairwise fun a b => a.1.same b.1 = false) :
    ((∀ row ∈ rows, row.1.same row.1 = true) →
      (p.entries v).2 = p ∧
      (p.entries v).1.Perm (rows.map rowEntry) ∧
      ((p.entries v).1.map (·.1.toText)).Pairwise (fun s t => Bytes.le s t = true) ∧
      ((∀ w, Relisted v w → p.entries w = p.entries v) ↔
        ((rows.map rowEntry).map (·.1.toText)).Nodup)) ∧
    ((∃ row ∈ rows, row.1.same row.1 = false) →
      ∃ message, p.entries v = ([], p.fail (.crash message))) := by
  refine ⟨fun hfound => ?_, entries_of_losesKey hp hrows⟩
  have hentries := entries_of_rows hp hrows hfound
  have hdistinct : (rows.map rowEntry).Nodup := by
    refine List.Nodup.map rowEntry_injective (hkeys.imp_of_mem fun ha _ hne heq => ?_)
    rw [← heq, hfound _ ha] at hne
    cases hne
  rw [hentries]
  refine ⟨rfl, List.mergeSort_perm _ _, ?_, fun h => ?_, fun h w hw => ?_⟩
  · rw [List.pairwise_map]
    exact pairwise_byKeyText _
  · obtain ⟨w, hw, hreverse⟩ := exists_relisted_reverse hrows
    have hback := h w hw
    rw [entries_of_rows hp hreverse (by simpa using hfound), List.map_reverse] at hback
    exact nodup_keyTexts_of_reverse hdistinct (congrArg Prod.fst hback)
  · obtain ⟨rows', hrows', hperm⟩ := hw.rows? hrows
    rw [entries_of_rows hp hrows' fun row hrow => hfound row (hperm.mem_iff.2 hrow)]
    have hsame := Bytes.mergeSort_eq_of_perm (fun e : Value β × Value β => e.1.toText)
      (hperm.map rowEntry) h
    exact congrArg (·, p) hsame.symm

def tenthNinth : List (Key × Value Empty) :=
  [(.int .int 10, .text "x"), (.int .int 9, .text "y")]

theorem entries_relisted_iff_tenthNinth :
    (blank none false).failure = none ∧ (table .ints tenthNinth).rows? = some tenthNinth ∧
    tenthNinth.Pairwise (fun a b => a.1.same b.1 = false) ∧
    (∀ row ∈ tenthNinth, row.1.same row.1 = true) ∧
    ((tenthNinth.map rowEntry).map (·.1.toText)).Nodup ∧
    ∀ w, Relisted (.table .ints tenthNinth) w →
      (blank none false).entries w = (blank none false).entries (table .ints tenthNinth) := by
  have hkeys : tenthNinth.Pairwise fun a b => a.1.same b.1 = false := by
    simp [tenthNinth, Key.same]
  have hfound : ∀ row ∈ tenthNinth, row.1.same row.1 = true := by
    simp [tenthNinth, Key.same]
  have htexts : ((tenthNinth.map rowEntry).map (·.1.toText)).Nodup := by
    decide
  have hrows : (table .ints tenthNinth).rows? = some tenthNinth := rfl
  obtain ⟨hordered, -⟩ := entries_relisted_iff (rfl : (blank none false).failure = none) hrows hkeys
  exact ⟨rfl, hrows, hkeys, hfound, htexts, (hordered hfound).2.2.2.2 htexts⟩

private theorem groups_oneAndText :
    (match Expression.ofSource "groupBy([1, \"1\", \"1\"], #)" with
      | .ok e =>
          match e.evaluate ([] : Env Empty) with
          | .ok (.table .groups [(.int .int 1, _), (.text s, _)]) => s == Bytes.ofString "1"
          | _ => false
      | .error _ => false) = true := by
  decide +kernel

/-- Grouped by themselves, a number and its text are different keys of one text, and a loop goes
through the groups in the order in which the map happens to list them. -/
theorem entries_relisted_ne_oneAndText :
    ∃ (e : Expression) (v w : Value Empty),
      Expression.ofSource "groupBy([1, \"1\", \"1\"], #)" = .ok e ∧ e.evaluate [] = .ok v ∧
      Relisted v w ∧ (blank none false).entries w ≠ (blank none false).entries v := by
  have hgroups := groups_oneAndText
  split at hgroups
  · rename_i e he
    split at hgroups
    · rename_i ones s texts hv
      obtain rfl := beq_iff_eq.1 hgroups
      have hrows : (table .groups [(.int .int 1, ones), (.text "1", texts)] : Value Empty).rows? =
          some [(.int .int 1, ones), (.text "1", texts)] := rfl
      obtain ⟨w, hw, hreverse⟩ := exists_relisted_reverse hrows
      refine ⟨e, _, w, he, hv, hw, fun hsame => ?_⟩
      rw [entries_of_rows rfl hrows (by simp [Key.same]),
        entries_of_rows rfl hreverse (by simp [Key.same]), List.map_reverse] at hsame
      have hdistinct : ([(.int .int 1, ones), (.text "1", texts)].map rowEntry).Nodup := by
        simp [rowEntry, Key.toValue]
      have hone : ¬ [(.int .int 1 : Value Empty).toText, (.text "1" : Value Empty).toText].Nodup := by
        decide
      exact hone (nodup_keyTexts_of_reverse hdistinct (congrArg Prod.fst hsame))
    · cases hgroups
  · cases hgroups

end Page

end TagLoom

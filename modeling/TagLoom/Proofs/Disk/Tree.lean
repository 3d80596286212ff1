import Mathlib.Data.List.Infix
import TagLoom.Disk
import TagLoom.Proofs.Diagnostic.Order
import TagLoom.Proofs.Path.Below

/-!
# Changes in file trees

What stands at a place of a tree after something was put there or taken away.  A change in a
directory is a change of the directory's entries, and nothing that is neither below nor above a
changed place changes.
-/

namespace TagLoom.FileTree

/-! ## Entries of a directory -/

namespace Entries

variable {es : Entries} {name other : Bytes} {t u : FileTree}

@[simp] theorem get?_nil (name : Bytes) : get? [] name = none := rfl

theorem get?_cons (n : Bytes) (t : FileTree) (es : Entries) (name : Bytes) :
    get? ((n, t) :: es) name = if n == name then some t else get? es name := by
  simp only [get?, List.find?_cons]
  cases n == name <;> rfl

theorem mem_of_get?_eq_some (h : get? es name = some t) : (name, t) ∈ es := by
  obtain ⟨e, he, rfl⟩ := Option.map_eq_some_iff.1 h
  obtain rfl : e.1 = name := by simpa using List.find?_some he
  exact List.mem_of_find?_eq_some he

theorem get?_insert_self (name : Bytes) (t : FileTree) (es : Entries) :
    get? (insert name t es) name = some t := by
  fun_induction insert name t es with
  | case1 => simp [get?_cons]
  | case2 n u es hn => simp [get?_cons]
  | case3 n u es hn hlt => simp [get?_cons]
  | case4 n u es hn hlt ih => simpa [get?_cons, hn] using ih

theorem get?_insert_of_ne (t : FileTree) (es : Entries) (h : other ≠ name) :
    get? (insert name t es) other = get? es other := by
  have hname : (name == other) = false := by simpa using h.symm
  fun_induction insert name t es with
  | case1 => simp [get?_cons, hname]
  | case2 n u es hn => simp [get?_cons, hname, beq_iff_eq.1 hn]
  | case3 n u es hn hlt => simp [get?_cons, hname]
  | case4 n u es hn hlt ih => rw [get?_cons, get?_cons, ih]

theorem mem_insert {e : Bytes × FileTree} (h : e ∈ insert name t es) : e = (name, t) ∨ e ∈ es := by
  fun_induction insert name t es with
  | case1 => simpa using h
  | case2 n v es hn => exact (List.mem_cons.1 h).imp_right (List.mem_cons_of_mem _)
  | case3 n v es hn hlt => exact List.mem_cons.1 h
  | case4 n v es hn hlt ih =>
      rcases List.mem_cons.1 h with rfl | h
      · exact .inr List.mem_cons_self
      · exact (ih h).imp_right (List.mem_cons_of_mem _)

theorem get?_erase_self (name : Bytes) (es : Entries) : get? (erase name es) name = none := by
  simp [get?, erase]

theorem get?_erase_of_ne (es : Entries) (h : other ≠ name) :
    get? (erase name es) other = get? es other := by
  induction es with
  | nil => rfl
  | cons e es ih =>
      obtain ⟨n, t⟩ := e
      cases hn : n == name with
      | true =>
          have hother : (n == other) = false := by
            rw [beq_iff_eq.1 hn]
            simpa using h.symm
          have herase : erase name ((n, t) :: es) = erase name es :=
            List.filter_cons_of_neg (by simp [bne, hn])
          rw [herase, ih, get?_cons, hother, if_neg Bool.false_ne_true]
      | false =>
          have herase : erase name ((n, t) :: es) = (n, t) :: erase name es :=
            List.filter_cons_of_pos (by simp [bne, hn])
          rw [herase, get?_cons, get?_cons, ih]

/-- A directory holds its entries in the order of their names, one for each name. -/
structure Proper (es : Entries) : Prop where
  ordered : es.Pairwise fun a b => Bytes.lt a.1 b.1 = true
  named : ∀ e ∈ es, Path.IsName e.1

theorem Proper.nil : Proper [] := ⟨.nil, fun _ h => nomatch h⟩

theorem Proper.get?_of_mem (h : Proper es) (he : (name, t) ∈ es) : get? es name = some t := by
  have hordered := h.ordered
  clear h
  induction es with
  | nil => cases he
  | cons e es ih =>
      obtain ⟨n, u⟩ := e
      rw [List.pairwise_cons] at hordered
      rw [get?_cons]
      rcases List.mem_cons.1 he with heq | he
      · cases heq
        simp
      · have hne : (n == name) = false := by
          have hlt := hordered.1 _ he
          rw [beq_eq_false_iff_ne]
          rintro rfl
          rw [Bytes.lt_irrefl] at hlt
          cases hlt
        rw [hne, if_neg Bool.false_ne_true, ih he hordered.2]

theorem Proper.erase (h : Proper es) (name : Bytes) : Proper (erase name es) :=
  ⟨h.ordered.sublist List.filter_sublist, fun e he => h.named e (List.mem_of_mem_filter he)⟩

theorem Proper.insert (h : Proper es) (hname : Path.IsName name) (t : FileTree) :
    Proper (insert name t es) := by
  refine ⟨?_, fun e he => ?_⟩
  · have hordered := h.ordered
    clear h
    fun_induction Entries.insert name t es with
    | case1 => simp
    | case2 n u es hn =>
        obtain rfl := beq_iff_eq.1 hn
        exact List.pairwise_cons.2 (List.pairwise_cons.1 hordered)
    | case3 n u es hn hlt =>
        refine List.pairwise_cons.2 ⟨fun e he => ?_, hordered⟩
        rcases List.mem_cons.1 he with rfl | he
        · exact hlt
        · exact Bytes.lt_trans hlt ((List.pairwise_cons.1 hordered).1 e he)
    | case4 n u es hn hlt ih =>
        rw [List.pairwise_cons] at hordered
        refine List.pairwise_cons.2 ⟨fun e he => ?_, ih hordered.2⟩
        rcases mem_insert he with rfl | he
        · rcases Bytes.lt_or_eq_or_lt n name with hn' | hn' | hn'
          · exact hn'
          · simp [hn'] at hn
          · simp [hn'] at hlt
        · exact hordered.1 e he
  · rcases mem_insert he with rfl | he
    · exact hname
    · exact h.named e he

end Entries

open Entries (get? get?_insert_self get?_insert_of_ne)

/-! ## Places -/

variable {t new old : FileTree} {es : Entries} {place q names : List Bytes} {name : Bytes}

@[simp] theorem at?_nil (t : FileTree) : t.at? [] = some t := by
  cases t <;> rfl

theorem at?_dir_cons (es : Entries) (name : Bytes) (names : List Bytes) :
    (FileTree.dir es).at? (name :: names) = (get? es name).bind fun t => t.at? names := by
  rw [at?]
  cases get? es name <;> rfl

theorem at?_append (t : FileTree) (place q : List Bytes) :
    t.at? (place ++ q) = (t.at? place).bind fun u => u.at? q := by
  induction place generalizing t with
  | nil => simp
  | cons name names ih =>
      cases t with
      | dir es =>
          rw [List.cons_append, at?_dir_cons, at?_dir_cons, Option.bind_assoc]
          congr 1
          funext u
          exact ih u
      | _ => rfl

theorem dir_of_at?_cons (h : t.at? (name :: names) = some old) :
    ∃ es u, t = .dir es ∧ get? es name = some u ∧ u.at? names = some old := by
  cases t with
  | dir es =>
      rw [at?_dir_cons] at h
      obtain ⟨u, hu, hrest⟩ := Option.bind_eq_some_iff.1 h
      exact ⟨es, u, rfl, hu, hrest⟩
  | _ => cases h

theorem at?_concat (h : t.at? place = some (.dir es)) (name : Bytes) :
    t.at? (place ++ [name]) = get? es name := by
  rw [at?_append, h, Option.bind_some, at?_dir_cons]
  cases get? es name <;> simp

theorem at?_put_self (new : FileTree) (place : List Bytes) (t : FileTree) :
    (put new place t).at? place = some new := by
  induction place generalizing t with
  | nil => simp [put]
  | cons name names ih =>
      cases t with
      | dir es => rw [put, at?_dir_cons, get?_insert_self, Option.bind_some, ih]
      | _ => simp [put, at?_dir_cons, Entries.get?_cons, ih]

theorem put_concat (h : t.at? place = some (.dir es)) (new : FileTree) (name : Bytes) :
    put new (place ++ [name]) t = put (.dir (Entries.insert name new es)) place t := by
  induction place generalizing t with
  | nil =>
      obtain rfl : t = .dir es := by simpa using h
      simp [put]
  | cons first rest ih =>
      obtain ⟨es', u, rfl, hu, hrest⟩ := dir_of_at?_cons h
      simp only [List.cons_append, put, hu, Option.getD_some, ih hrest]

theorem erase_concat (h : t.at? place = some (.dir es)) (name : Bytes) :
    erase (place ++ [name]) t = put (.dir (Entries.erase name es)) place t := by
  induction place generalizing t with
  | nil =>
      obtain rfl : t = .dir es := by simpa using h
      rfl
  | cons first rest ih =>
      obtain ⟨es', u, rfl, hu, hrest⟩ := dir_of_at?_cons h
      have hrest' : rest ++ [name] ≠ [] := by simp
      cases hlist : rest ++ [name] with
      | nil => exact absurd hlist hrest'
      | cons second more =>
          rw [List.cons_append, hlist, erase, hu, ← hlist]
          · simp only [put, hu, Option.getD_some, ih hrest]
          · simp

/-! ## What a directory would hold -/

/-- What a directory holds: nothing as long as it is not there.  None when something on the way is
no directory. -/
@[grind =] def entriesAt? : FileTree → List Bytes → Option Entries
  | .dir es, [] => some es
  | .dir es, name :: names =>
      match get? es name with
      | some t => t.entriesAt? names
      | none => some []
  | _, _ => none

theorem entriesAt?_empty (place : List Bytes) : empty.entriesAt? place = some [] := by
  cases place <;> rfl

theorem dir_of_entriesAt? (h : t.entriesAt? place = some es) : ∃ root, t = .dir root := by
  cases t with
  | dir root => exact ⟨root, rfl⟩
  | _ => cases place <;> cases h

/-- A directory that can be there is there, or is not and would be empty. -/
theorem at?_of_entriesAt? (h : t.entriesAt? place = some es) :
    t.at? place = some (.dir es) ∨ t.at? place = none ∧ es = [] := by
  induction place generalizing t with
  | nil =>
      obtain ⟨root, rfl⟩ := dir_of_entriesAt? h
      exact .inl (by rw [at?_nil, Option.some.inj h])
  | cons name names ih =>
      obtain ⟨root, rfl⟩ := dir_of_entriesAt? h
      rw [entriesAt?] at h
      rw [at?_dir_cons]
      cases hname : get? root name with
      | none =>
          simp only [hname, Option.some.injEq] at h
          exact .inr ⟨rfl, h.symm⟩
      | some u =>
          simp only [hname] at h
          exact ih h

theorem entriesAt?_concat (h : t.entriesAt? (place ++ [name]) = some es) :
    ∃ above, t.entriesAt? place = some above := by
  induction place generalizing t with
  | nil =>
      obtain ⟨root, rfl⟩ := dir_of_entriesAt? h
      exact ⟨root, rfl⟩
  | cons first rest ih =>
      obtain ⟨root, rfl⟩ := dir_of_entriesAt? h
      rw [List.cons_append, entriesAt?] at h
      rw [entriesAt?]
      cases hfirst : get? root first with
      | none => exact ⟨[], rfl⟩
      | some u =>
          simp only [hfirst] at h
          exact ih h

theorem entriesAt?_append {above : Entries} (h : t.at? place = some (.dir above))
    (q : List Bytes) : t.entriesAt? (place ++ q) = (FileTree.dir above).entriesAt? q := by
  induction place generalizing t with
  | nil =>
      rw [at?_nil] at h
      rw [Option.some.inj h, List.nil_append]
  | cons name names ih =>
      obtain ⟨root, u, rfl, hu, hrest⟩ := dir_of_at?_cons h
      rw [List.cons_append, entriesAt?, hu]
      exact ih hrest

/-! ## What stays -/

theorem at?_put_of_apart (h : t.entriesAt? place = some es) (new : FileTree)
    (hbelow : ¬ place <+: q) (habove : ¬ q <+: place) : (put new place t).at? q = t.at? q := by
  induction place generalizing t q es with
  | nil => exact absurd List.nil_prefix hbelow
  | cons name names ih =>
      obtain ⟨root, rfl⟩ := dir_of_entriesAt? h
      cases q with
      | nil => exact absurd List.nil_prefix habove
      | cons first rest =>
          rw [put, at?_dir_cons, at?_dir_cons]
          by_cases hfirst : first = name
          · subst hfirst
            rw [List.cons_prefix_cons, and_iff_right rfl] at hbelow habove
            rw [get?_insert_self, Option.bind_some]
            rw [entriesAt?] at h
            cases hname : get? root first with
            | none =>
                rw [Option.getD_none, ih (entriesAt?_empty names) hbelow habove, Option.bind_none]
                cases rest with
                | nil => exact absurd List.nil_prefix habove
                | cons second more => rfl
            | some u =>
                simp only [hname] at h
                rw [Option.getD_some, ih h hbelow habove, Option.bind_some]
          · rw [get?_insert_of_ne _ _ hfirst]

theorem at?_put_empty (h : t.entriesAt? place = some es) (hnone : t.at? place = none)
    (hq : ¬ q <+: place) : (put empty place t).at? q = t.at? q := by
  by_cases hbelow : place <+: q
  · obtain ⟨rest, rfl⟩ := hbelow
    cases rest with
    | nil => simp at hq
    | cons first rest =>
        rw [at?_append, at?_append, at?_put_self, hnone]
        rfl
  · exact at?_put_of_apart h empty hbelow hq

/-- Two trees that differ at most below a place, and in the directories on the way to it. -/
def SameOutside (place : List Bytes) (t u : FileTree) : Prop :=
  ∀ q, ¬ place <+: q → ¬ q <+: place → u.at? q = t.at? q

theorem SameOutside.trans {u v : FileTree} (htu : SameOutside place t u)
    (huv : SameOutside place u v) : SameOutside place t v :=
  fun q h h' => (huv q h h').trans (htu q h h')

end TagLoom.FileTree

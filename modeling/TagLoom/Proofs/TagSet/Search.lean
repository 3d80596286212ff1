import Mathlib.Algebra.GroupWithZero.Nat
import Mathlib.Data.List.Nodup
import Mathlib.Logic.Relation
import TagLoom.TagSet

/-!
# Searching a graph

The search keeps the vertices that are not in a component yet on a stack, each above those visited
before it.  Every vertex on it reaches one of those being visited, which in turn reach all above
them.  `Scanning` says so of a search that goes through the edges of a vertex.
-/

namespace TagLoom.TagSet

open Relation (ReflTransGen TransGen)

/-- There are edges from one vertex to the next, all the way to another one, or none at all. -/
def Graph.Reaches (g : Graph) : Bytes → Bytes → Prop :=
  ReflTransGen fun v w => w ∈ g.successors v

namespace Search

variable {g : Graph} {names : List Bytes} {st st' base : Search} {u v w : Bytes} {path : List Bytes}

def number (st : Search) (v : Bytes) : Nat := (st.indexOf? v).getD 0

def Visited (st : Search) (v : Bytes) : Prop := st.indexOf? v ≠ none

def Done (st : Search) (v : Bytes) : Prop := st.Visited v ∧ v ∉ st.stack

def enter (st : Search) (v : Bytes) : Search :=
  { st with index := (v, st.index.length) :: st.index, low := (v, st.index.length) :: st.low,
            stack := v :: st.stack }

/-! ## Numbers -/

theorem indexOf?_enter (st : Search) (v u : Bytes) :
    (st.enter v).indexOf? u = if v = u then some st.index.length else st.indexOf? u := by
  simp only [enter, indexOf?, List.find?_cons]
  by_cases h : v = u
  · simp [h]
  · simp [h, beq_eq_false_iff_ne.2 h]

theorem lowOf_enter (st : Search) (v u : Bytes) :
    (st.enter v).lowOf u = if v = u then st.index.length else st.lowOf u := by
  simp only [enter, lowOf, List.find?_cons]
  by_cases h : v = u
  · simp [h]
  · simp [h, beq_eq_false_iff_ne.2 h]

theorem lowOf_lower (st : Search) (v : Bytes) (n : Nat) (u : Bytes) :
    (st.lower v n).lowOf u = if v = u then min (st.lowOf v) n else st.lowOf u := by
  simp only [lower]
  by_cases h : v = u
  · simp [lowOf, h]
  · have hkeep : (fun entry : Bytes × Nat =>
        decide ((entry.1 != v) = true ∧ (entry.1 == u) = true)) = fun entry => entry.1 == u := by
      funext entry
      by_cases hu : entry.1 = u
      · simp [hu, Ne.symm h]
      · simp [hu]
    simp only [lowOf, List.find?_cons, beq_eq_false_iff_ne.2 h, List.find?_filter, if_neg h]
    rw [hkeep]

theorem visited_enter : (st.enter v).Visited u ↔ u = v ∨ st.Visited u := by
  rw [Visited, indexOf?_enter, Visited]
  by_cases h : v = u
  · simp [h]
  · simp [h, Ne.symm h]

theorem number_enter_self (st : Search) (v : Bytes) : (st.enter v).number v = st.index.length := by
  simp [number, indexOf?_enter]

/-- A later state of a search: vertices keep their numbers, those visited since have greater ones,
and they are above those that were on the stack. -/
structure Extends (st st' : Search) : Prop where
  kept : ∀ v, st.Visited v → st'.indexOf? v = st.indexOf? v
  fresh : ∀ v, ¬st.Visited v → st'.Visited v → st.index.length ≤ st'.number v
  length : st.index.length ≤ st'.index.length
  stack : ∃ new, st'.stack = new ++ st.stack ∧ ∀ v ∈ new, ¬st.Visited v

theorem Extends.refl (st : Search) : Extends st st :=
  ⟨fun _ _ => rfl, fun _ hout hin => absurd hin hout, Nat.le_refl _, [], rfl,
    fun _ h => (nomatch h)⟩

theorem Extends.visited (h : Extends st st') (hv : st.Visited v) : st'.Visited v := by
  rw [Visited, h.kept v hv]
  exact hv

theorem Extends.number (h : Extends st st') (hv : st.Visited v) : st'.number v = st.number v := by
  rw [Search.number, h.kept v hv, Search.number]

theorem Extends.mem_stack (h : Extends st st') (hv : v ∈ st.stack) : v ∈ st'.stack := by
  obtain ⟨new, hstack, -⟩ := h.stack
  rw [hstack]
  exact List.mem_append_right new hv

theorem Extends.mem_of_visited (h : Extends st st') (hv : v ∈ st'.stack) (hold : st.Visited v) :
    v ∈ st.stack := by
  obtain ⟨new, hstack, hnew⟩ := h.stack
  rw [hstack] at hv
  exact (List.mem_append.1 hv).resolve_left fun hin => hnew v hin hold

theorem Extends.trans {st'' : Search} (h : Extends st st') (h' : Extends st' st'') :
    Extends st st'' := by
  constructor
  · intro v hv
    rw [h'.kept v (h.visited hv), h.kept v hv]
  · intro v hout hin
    by_cases hv : st'.Visited v
    · rw [h'.number hv]
      exact h.fresh v hout hv
    · exact Nat.le_trans h.length (h'.fresh v hv hin)
  · exact Nat.le_trans h.length h'.length
  · obtain ⟨new, hstack, hnew⟩ := h.stack
    obtain ⟨new', hstack', hnew'⟩ := h'.stack
    refine ⟨new' ++ new, by rw [hstack', hstack, List.append_assoc], ?_⟩
    intro v hv
    rcases List.mem_append.1 hv with hv | hv
    · exact fun hold => hnew' v hv (h.visited hold)
    · exact hnew v hv

theorem extends_enter (hv : ¬st.Visited v) : Extends st (st.enter v) := by
  constructor
  · intro u hu
    rw [indexOf?_enter, if_neg]
    rintro rfl
    exact hv hu
  · intro u hout hin
    obtain rfl : u = v := (visited_enter.1 hin).resolve_right hout
    exact Nat.le_of_eq (number_enter_self st u).symm
  · exact Nat.le_succ _
  · exact ⟨[v], rfl, fun u hu => by rwa [List.mem_singleton.1 hu]⟩

/-! ## The stack and the components -/

/-- What holds all through a search, while the vertices of a path are visited. -/
structure Sound (g : Graph) (names : List Bytes) (st : Search) (path : List Bytes) : Prop where
  known : ∀ v, st.Visited v → v ∈ names
  numbered : ∀ v, st.Visited v → st.number v < st.index.length
  stacked : ∀ v ∈ st.stack, st.Visited v
  sorted : st.stack.Pairwise fun v w => st.number w < st.number v
  active : path.Sublist st.stack
  closed : ∀ v, st.Done v → ∀ w ∈ g.successors v, st.Done w
  scanned : ∀ v ∈ st.stack, v ∉ path → ∀ w ∈ g.successors v, st.Visited w
  down : ∀ p ∈ path, ∀ v ∈ st.stack, st.number p ≤ st.number v → g.Reaches p v
  up : ∀ v ∈ st.stack, ∃ p ∈ path, st.number p ≤ st.number v ∧ g.Reaches v p
  nodup : st.components.flatten.Nodup
  found : ∀ v, v ∈ st.components.flatten ↔ st.Done v
  component : ∀ c ∈ st.components, c ≠ [] ∧ c.Sublist names ∧
    ∀ v ∈ c, ∀ w, w ∈ c ↔ g.Reaches v w ∧ g.Reaches w v

theorem sound_initial (g : Graph) (names : List Bytes) : Sound g names ⟨[], [], [], []⟩ [] := by
  have hnone (v : Bytes) : ¬Visited ⟨[], [], [], []⟩ v := fun hv => hv rfl
  constructor
  case known => exact fun v hv => absurd hv (hnone v)
  case numbered => exact fun v hv => absurd hv (hnone v)
  case stacked => exact fun v hv => (nomatch hv)
  case sorted => exact .nil
  case active => exact List.Sublist.refl []
  case closed => exact fun v hv => absurd hv.1 (hnone v)
  case scanned => exact fun v hv => (nomatch hv)
  case down => exact fun p hp => (nomatch hp)
  case up => exact fun v hv => (nomatch hv)
  case nodup => exact List.nodup_nil
  case found => exact fun v => ⟨fun hv => (nomatch hv), fun hv => absurd hv.1 (hnone v)⟩
  case component => exact fun c hc => (nomatch hc)

theorem Sound.stack_eq_nil (h : Sound g names st []) : st.stack = [] := by
  refine List.eq_nil_iff_forall_not_mem.2 fun v hv => ?_
  obtain ⟨p, hp, -⟩ := h.up v hv
  cases hp

theorem Sound.done_of_reaches (h : Sound g names st path) (hu : st.Done u)
    (hreaches : g.Reaches u w) : st.Done w := by
  induction hreaches with
  | refl => exact hu
  | tail _ hedge ih => exact h.closed _ ih _ hedge

theorem Sound.lower (h : Sound g names st path) (v : Bytes) (n : Nat) :
    Sound g names (st.lower v n) path :=
  ⟨h.known, h.numbered, h.stacked, h.sorted, h.active, h.closed, h.scanned, h.down, h.up, h.nodup,
    h.found, h.component⟩

theorem Sound.enter (h : Sound g names st path) (hv : v ∈ names) (hnew : ¬st.Visited v)
    (hpath : ∀ p ∈ path, g.Reaches p v) : Sound g names (st.enter v) (v :: path) := by
  have hstack : v ∉ st.stack := fun hin => hnew (h.stacked v hin)
  have hnumber (u : Bytes) (hu : st.Visited u) : (st.enter v).number u = st.number u :=
    (extends_enter hnew).number hu
  have hdone (u : Bytes) : (st.enter v).Done u ↔ st.Done u := by
    have hin : u ∈ (st.enter v).stack ↔ u = v ∨ u ∈ st.stack := List.mem_cons
    rw [Done, Done, visited_enter, hin, not_or]
    constructor
    · rintro ⟨hvisited, hne, hout⟩
      exact ⟨hvisited.resolve_left hne, hout⟩
    · rintro ⟨hvisited, hout⟩
      exact ⟨.inr hvisited, fun heq => hnew (heq ▸ hvisited), hout⟩
  constructor
  case known =>
    intro u hu
    rcases visited_enter.1 hu with rfl | hu
    · exact hv
    · exact h.known u hu
  case numbered =>
    intro u hu
    have hlength : (st.enter v).index.length = st.index.length + 1 := rfl
    by_cases hold : st.Visited u
    · have hlt := h.numbered u hold
      rw [hnumber u hold]
      omega
    · obtain rfl : u = v := (visited_enter.1 hu).resolve_right hold
      rw [number_enter_self]
      omega
  case stacked =>
    intro u hu
    refine visited_enter.2 ((List.mem_cons.1 hu).imp_right (h.stacked u))
  case sorted =>
    refine List.pairwise_cons.2 ⟨fun u hu => ?_, h.sorted.imp_of_mem fun hu hw hlt => ?_⟩
    · rw [number_enter_self, hnumber u (h.stacked u hu)]
      exact h.numbered u (h.stacked u hu)
    · rwa [hnumber _ (h.stacked _ hu), hnumber _ (h.stacked _ hw)]
  case active => exact h.active.cons_cons v
  case closed =>
    intro u hu w hw
    exact (hdone w).2 (h.closed u ((hdone u).1 hu) w hw)
  case scanned =>
    intro u hu hout w hw
    obtain ⟨hne, hout⟩ := not_or.1 (fun hin => hout (List.mem_cons.2 hin))
    exact visited_enter.2 (.inr (h.scanned u ((List.mem_cons.1 hu).resolve_left hne) hout w hw))
  case down =>
    intro p hp u hu hle
    rcases List.mem_cons.1 hu with rfl | hin
    · rcases List.mem_cons.1 hp with rfl | hp
      · exact .refl
      · exact hpath p hp
    · have hold := h.stacked u hin
      rw [hnumber u hold] at hle
      rcases List.mem_cons.1 hp with rfl | hp
      · have hlt := h.numbered u hold
        rw [number_enter_self] at hle
        omega
      · rw [hnumber p (h.stacked p (h.active.subset hp))] at hle
        exact h.down p hp u hin hle
  case up =>
    intro u hu
    rcases List.mem_cons.1 hu with rfl | hu
    · exact ⟨u, List.mem_cons_self, Nat.le_refl _, .refl⟩
    · obtain ⟨p, hp, hle, hreaches⟩ := h.up u hu
      refine ⟨p, List.mem_cons_of_mem v hp, ?_, hreaches⟩
      rwa [hnumber p (h.stacked p (h.active.subset hp)), hnumber u (h.stacked u hu)]
  case nodup => exact h.nodup
  case found => exact fun u => (h.found u).trans (hdone u).symm
  case component => exact h.component

/-! ## Visiting a vertex -/

/-- A vertex that has been visited: what it is known to reach outside its component has no number
below its lowest one, and that one is reached. -/
structure Visits (g : Graph) (names path : List Bytes) (base : Search) (v : Bytes) (st : Search) :
    Prop where
  sound : Sound g names st path
  extends_ : Extends base st
  lows : ∀ u, base.Visited u → st.lowOf u = base.lowOf u
  visited : st.Visited v
  low_le : st.lowOf v ≤ st.number v
  reached : base.index.length ≤ st.lowOf v ∨
    ∃ w ∈ base.stack, st.lowOf v = base.number w ∧ g.Reaches v w
  lowest : ∀ u ∈ st.stack, ¬base.Visited u → ∀ w ∈ g.successors u, w ∈ base.stack →
    st.lowOf v ≤ base.number w

/-- A vertex some of whose successors have been visited. -/
structure Scanning (g : Graph) (names path : List Bytes) (base : Search) (v : Bytes)
    (seen : List Bytes) (st : Search) : Prop where
  before : Sound g names base path
  sound : Sound g names st (v :: path)
  new : ¬base.Visited v
  extends_ : Extends base st
  lows : ∀ u, base.Visited u → st.lowOf u = base.lowOf u
  number_eq : st.number v = base.index.length
  stack : ∃ upper, st.stack = upper ++ v :: base.stack
  low_le : st.lowOf v ≤ st.number v
  reached : ∃ w ∈ st.stack, st.lowOf v = st.number w ∧ g.Reaches v w
  seen : ∀ w ∈ seen, st.Visited w ∧ (w ∈ st.stack → st.lowOf v ≤ st.number w)
  lowest : ∀ u ∈ st.stack, ¬base.Visited u → u ≠ v → ∀ w ∈ g.successors u, w ∈ base.stack →
    st.lowOf v ≤ base.number w

theorem scanning_enter (h : Sound g names st path) (hv : v ∈ names) (hnew : ¬st.Visited v)
    (hpath : ∀ p ∈ path, g.Reaches p v) :
    Scanning g names path st v [] (st.enter v) := by
  have hlow : (st.enter v).lowOf v = st.index.length := by rw [lowOf_enter, if_pos rfl]
  have hnumber := number_enter_self st v
  constructor
  case before => exact h
  case sound => exact h.enter hv hnew hpath
  case new => exact hnew
  case extends_ => exact extends_enter hnew
  case lows =>
    intro u hu
    rw [lowOf_enter, if_neg]
    rintro rfl
    exact hnew hu
  case number_eq => exact hnumber
  case stack => exact ⟨[], rfl⟩
  case low_le => exact Nat.le_of_eq (hlow.trans hnumber.symm)
  case reached => exact ⟨v, List.mem_cons_self, by rw [hlow, hnumber], .refl⟩
  case seen => exact fun w hw => (nomatch hw)
  case lowest =>
    intro u hu hout hne
    exact absurd (h.stacked u ((List.mem_cons.1 hu).resolve_left hne)) hout

section Step

variable {seen : List Bytes}

theorem Scanning.visited (h : Scanning g names path base v seen st) : st.Visited v := by
  obtain ⟨upper, hstack⟩ := h.stack
  exact h.sound.stacked v (by simp [hstack])

theorem Scanning.number_upper {upper : List Bytes} (h : Scanning g names path base v seen st)
    (hstack : st.stack = upper ++ v :: base.stack) (hu : u ∈ upper) :
    st.number v < st.number u := by
  have hsorted := h.sound.sorted
  rw [hstack] at hsorted
  exact (List.pairwise_append.1 hsorted).2.2 u hu v List.mem_cons_self

theorem Scanning.number_base (h : Scanning g names path base v seen st) (hu : u ∈ base.stack) :
    st.number u < st.number v := by
  obtain ⟨upper, hstack⟩ := h.stack
  have hsorted := h.sound.sorted
  rw [hstack] at hsorted
  exact List.rel_of_pairwise_cons (List.pairwise_append.1 hsorted).2.1 hu

theorem Scanning.path_reaches (h : Scanning g names path base v seen st) :
    ∀ p ∈ v :: path, g.Reaches p v := by
  obtain ⟨upper, hstack⟩ := h.stack
  intro p hp
  refine h.sound.down p hp v (by simp [hstack]) ?_
  rcases List.mem_cons.1 hp with rfl | hp
  · exact Nat.le_refl _
  · exact Nat.le_of_lt (h.number_base (h.before.active.subset hp))

theorem Scanning.lower (h : Scanning g names path base v seen st) {n : Nat}
    (hreached : n < st.lowOf v → ∃ w ∈ st.stack, n = st.number w ∧ g.Reaches v w) :
    Scanning g names path base v seen (st.lower v n) := by
  have hlow : (st.lower v n).lowOf v = min (st.lowOf v) n := by rw [lowOf_lower, if_pos rfl]
  have hle : (st.lower v n).lowOf v ≤ st.lowOf v := by omega
  constructor
  case before => exact h.before
  case sound => exact h.sound.lower v n
  case new => exact h.new
  case extends_ => exact ⟨h.extends_.kept, h.extends_.fresh, h.extends_.length, h.extends_.stack⟩
  case lows =>
    intro u hu
    rw [lowOf_lower, if_neg, h.lows u hu]
    rintro rfl
    exact h.new hu
  case number_eq => exact h.number_eq
  case stack => exact h.stack
  case low_le => exact Nat.le_trans hle h.low_le
  case reached =>
    rw [hlow]
    by_cases hlt : n < st.lowOf v
    · obtain ⟨w, hw, heq, hreaches⟩ := hreached hlt
      exact ⟨w, hw, by rw [Nat.min_eq_right (by omega), heq]; rfl, hreaches⟩
    · obtain ⟨w, hw, heq, hreaches⟩ := h.reached
      exact ⟨w, hw, by rw [Nat.min_eq_left (by omega), heq]; rfl, hreaches⟩
  case seen =>
    intro w hw
    obtain ⟨hvisited, hnumber⟩ := h.seen w hw
    exact ⟨hvisited, fun hin => Nat.le_trans hle (hnumber hin)⟩
  case lowest =>
    intro u hu hout hne w hw hin
    exact Nat.le_trans hle (h.lowest u hu hout hne w hw hin)

theorem Scanning.see (h : Scanning g names path base v seen st) (hvisited : st.Visited w)
    (hlow : w ∈ st.stack → st.lowOf v ≤ st.number w) :
    Scanning g names path base v (seen ++ [w]) st := by
  refine { h with seen := fun u hu => ?_ }
  rcases List.mem_append.1 hu with hu | hu
  · exact h.seen u hu
  · rw [List.mem_singleton.1 hu]
    exact ⟨hvisited, hlow⟩

theorem Scanning.pass (h : Scanning g names path base v seen st) (hw : w ∈ g.successors v) {i : Nat}
    (hindex : st.indexOf? w = some i) :
    Scanning g names path base v (seen ++ [w])
      (if st.stack.contains w then st.lower v i else st) := by
  have hvisited : st.Visited w := by simp [Visited, hindex]
  have hnumber : st.number w = i := by simp [Search.number, hindex]
  split
  · rename_i hin
    have hin : w ∈ st.stack := by simpa using hin
    refine (h.lower fun _ => ⟨w, hin, hnumber.symm, .single hw⟩).see hvisited fun _ => ?_
    rw [lowOf_lower, if_pos rfl]
    exact hnumber ▸ Nat.min_le_right _ _
  · rename_i hout
    exact h.see hvisited fun hin => absurd (List.contains_iff_mem.2 hin) hout

theorem Scanning.child (h : Scanning g names path base v seen st) (hw : w ∈ g.successors v)
    (hvisits : Visits g names (v :: path) st w st') :
    Scanning g names path base v (seen ++ [w]) (st'.lower v (st'.lowOf w)) := by
  have hext := hvisits.extends_
  have hlow : st'.lowOf v = st.lowOf v := hvisits.lows v h.visited
  have hmin : (st'.lower v (st'.lowOf w)).lowOf v = min (st.lowOf v) (st'.lowOf w) := by
    rw [lowOf_lower, if_pos rfl, hlow]
  have hnumber (u : Bytes) (hu : u ∈ st.stack) : st'.number u = st.number u :=
    hext.number (h.sound.stacked u hu)
  obtain ⟨upper, hstack⟩ := h.stack
  have hv : v ∈ st.stack := by simp [hstack]
  constructor
  case before => exact h.before
  case sound => exact hvisits.sound.lower v _
  case new => exact h.new
  case extends_ =>
    have hext := h.extends_.trans hvisits.extends_
    exact ⟨hext.kept, hext.fresh, hext.length, hext.stack⟩
  case lows =>
    intro u hu
    rw [lowOf_lower, if_neg, hvisits.lows u (h.extends_.visited hu), h.lows u hu]
    rintro rfl
    exact h.new hu
  case number_eq => exact (hnumber v hv).trans h.number_eq
  case stack =>
    obtain ⟨new, hnew, -⟩ := hext.stack
    exact ⟨new ++ upper, by rw [List.append_assoc, ← hstack]; exact hnew⟩
  case low_le =>
    rw [hmin]
    exact Nat.le_trans (Nat.min_le_left _ _) ((hnumber v hv).symm ▸ h.low_le)
  case reached =>
    rw [hmin]
    by_cases hlt : st'.lowOf w < st.lowOf v
    · have hle := h.low_le
      have hlast := h.sound.numbered v h.visited
      rcases hvisits.reached with hlength | ⟨u, hu, heq, hreaches⟩
      · omega
      · refine ⟨u, hext.mem_stack hu, ?_, .head hw hreaches⟩
        rw [Nat.min_eq_right (by omega), heq]
        exact (hnumber u hu).symm
    · obtain ⟨u, hu, heq, hreaches⟩ := h.reached
      refine ⟨u, hext.mem_stack hu, ?_, hreaches⟩
      rw [Nat.min_eq_left (by omega), heq]
      exact (hnumber u hu).symm
  case seen =>
    intro u hu
    rw [hmin]
    rcases List.mem_append.1 hu with hu | hu
    · obtain ⟨hvisited, hle⟩ := h.seen u hu
      refine ⟨hext.visited hvisited, fun hin => ?_⟩
      have hin : u ∈ st.stack := hext.mem_of_visited hin hvisited
      exact Nat.le_trans (Nat.min_le_left _ _) ((hnumber u hin).symm ▸ hle hin)
    · rw [List.mem_singleton.1 hu]
      exact ⟨hvisits.visited, fun _ => Nat.le_trans (Nat.min_le_right _ _) hvisits.low_le⟩
  case lowest =>
    intro u hu hout hne x hx hin
    rw [hmin]
    have hxin : x ∈ st.stack := h.extends_.mem_stack hin
    by_cases hold : st.Visited u
    · have huin : u ∈ st.stack := hext.mem_of_visited hu hold
      exact Nat.le_trans (Nat.min_le_left _ _) (h.lowest u huin hout hne x hx hin)
    · have hle := hvisits.lowest u hu hold x hx hxin
      rw [h.extends_.number (h.before.stacked x hin)] at hle
      exact Nat.le_trans (Nat.min_le_right _ _) hle

end Step

end Search

end TagLoom.TagSet

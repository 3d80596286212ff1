import TagLoom.Proofs.TagSet.Search

/-!
# Strongly connected components

When the lowest number a vertex reaches is its own, it and what is above it on the stack are a
component.  Every edge is gone through once, so the steps that the search is given are enough.
-/

namespace TagLoom.TagSet

namespace Search

variable {g : Graph} {names : List Bytes} {st st' base : Search} {u v w : Bytes} {path : List Bytes}

/-! ## Leaving a vertex -/

theorem popTo_eq {upper rest : List Bytes} (hstack : st.stack = upper ++ v :: rest)
    (hv : v ∉ upper) : st.popTo names v =
      { st with stack := rest,
                components := st.components ++ [names.filter (upper ++ [v]).contains] } := by
  have hbefore : ∀ u ∈ upper, (u != v) = true := fun u hu =>
    bne_iff_ne.2 (ne_of_mem_of_not_mem hu hv)
  have htake : st.stack.takeWhile (· != v) = upper := by
    rw [hstack, List.takeWhile_append_of_pos hbefore]
    simp
  have hdrop : st.stack.dropWhile (· != v) = v :: rest := by
    rw [hstack, List.dropWhile_append_of_pos hbefore]
    simp
  rw [popTo, htake, hdrop]
  rfl

theorem mem_stack_iff {upper rest : List Bytes} (hstack : st.stack = upper ++ v :: rest) :
    u ∈ st.stack ↔ u ∈ upper ++ [v] ∨ u ∈ rest := by
  simp [hstack, or_assoc]

section Leave

variable {upper : List Bytes} (h : Scanning g names path base v (g.successors v) st)
  (hstack : st.stack = upper ++ v :: base.stack)

include h hstack

theorem Scanning.number_members (hu : u ∈ upper ++ [v]) : st.number v ≤ st.number u := by
  rcases List.mem_append.1 hu with hu | hu
  · exact Nat.le_of_lt (h.number_upper hstack hu)
  · exact Nat.le_of_eq (congrArg st.number (List.mem_singleton.1 hu).symm)

theorem Scanning.notMem_base (hu : u ∈ upper ++ [v]) : u ∉ base.stack := by
  intro hin
  have hle := h.number_members hstack hu
  have hlt := h.number_base hin
  omega

theorem Scanning.fresh (hu : u ∈ upper ++ [v]) : ¬base.Visited u := by
  obtain ⟨new, hnew, hfresh⟩ := h.extends_.stack
  have heq : new ++ base.stack = (upper ++ [v]) ++ base.stack := by
    rw [← hnew, hstack, List.append_assoc]
    rfl
  exact hfresh u (List.append_cancel_right heq ▸ hu)

theorem Scanning.scanned (hu : u ∈ upper ++ [v]) (hw : w ∈ g.successors u) : st.Visited w := by
  rcases List.mem_append.1 hu with hin | hin
  · have hne : u ≠ v := by
      rintro rfl
      exact Nat.lt_irrefl _ (h.number_upper hstack hin)
    refine h.sound.scanned u ((mem_stack_iff hstack).2 (.inl hu)) (fun hpath => ?_) w hw
    exact h.notMem_base hstack hu
      (h.before.active.subset ((List.mem_cons.1 hpath).resolve_left hne))
  · rw [List.mem_singleton.1 hin] at hw
    exact (h.seen w hw).1

/-- An edge out of what was visited from a vertex down the stack bounds its lowest number. -/
theorem Scanning.lowOf_le (hu : u ∈ upper ++ [v]) (hw : w ∈ g.successors u)
    (hin : w ∈ base.stack) : st.lowOf v ≤ st.number w := by
  have hkept : st.number w = base.number w := h.extends_.number (h.before.stacked w hin)
  by_cases hne : u = v
  · rw [hne] at hw
    exact (h.seen w hw).2 ((mem_stack_iff hstack).2 (.inr hin))
  · rw [hkept]
    exact h.lowest u ((mem_stack_iff hstack).2 (.inl hu)) (h.fresh hstack hu) hne w hw hin

theorem Scanning.reaches_member (hu : u ∈ upper ++ [v]) : g.Reaches v u :=
  h.sound.down v List.mem_cons_self u ((mem_stack_iff hstack).2 (.inl hu))
    (h.number_members hstack hu)

theorem Scanning.member_reaches (hu : u ∈ upper ++ [v]) : g.Reaches u v := by
  obtain ⟨p, hp, -, hreaches⟩ := h.sound.up u ((mem_stack_iff hstack).2 (.inl hu))
  exact hreaches.trans (h.path_reaches p hp)

section Root

variable (hroot : st.lowOf v = st.number v)

include hroot

theorem Scanning.successor_member (hu : u ∈ upper ++ [v]) (hw : w ∈ g.successors u) :
    w ∈ upper ++ [v] ∨ st.Done w := by
  have hvisited := h.scanned hstack hu hw
  by_cases hin : w ∈ st.stack
  · refine .inl (((mem_stack_iff hstack).1 hin).resolve_right fun hbase => ?_)
    have hle := h.lowOf_le hstack hu hw hbase
    have hlt := h.number_base hbase
    omega
  · exact .inr ⟨hvisited, hin⟩

theorem Scanning.reaches_of_member (hu : u ∈ upper ++ [v]) (hreaches : g.Reaches u w) :
    w ∈ upper ++ [v] ∨ st.Done w := by
  induction hreaches with
  | refl => exact .inl hu
  | tail _ hedge ih =>
      rcases ih with hin | hdone
      · exact h.successor_member hstack hroot hin hedge
      · exact .inr (h.sound.closed _ hdone _ hedge)

theorem Scanning.mem_members_iff : u ∈ upper ++ [v] ↔ g.Reaches v u ∧ g.Reaches u v := by
  constructor
  · exact fun hu => ⟨h.reaches_member hstack hu, h.member_reaches hstack hu⟩
  · rintro ⟨hto, hback⟩
    refine (h.reaches_of_member hstack hroot (by simp) hto).resolve_right fun hdone => ?_
    have hv := h.sound.done_of_reaches hdone hback
    exact hv.2 (by simp [hstack])

end Root

theorem Scanning.sound_popTo (hnames : names.Nodup) (hroot : st.lowOf v = st.number v) :
    Sound g names (st.popTo names v) path := by
  have hv : v ∉ upper := fun hin => Nat.lt_irrefl _ (h.number_upper hstack hin)
  rw [popTo_eq hstack hv]
  have hmember (u : Bytes) (hu : u ∈ upper ++ [v]) : u ∈ st.stack :=
    (mem_stack_iff hstack).2 (.inl hu)
  have hbase (u : Bytes) (hu : u ∈ base.stack) : u ∈ st.stack := (mem_stack_iff hstack).2 (.inr hu)
  have hfilter (u : Bytes) : u ∈ names.filter (upper ++ [v]).contains ↔ u ∈ upper ++ [v] := by
    rw [List.mem_filter, List.contains_iff_mem]
    exact ⟨fun hu => hu.2, fun hu => ⟨h.sound.known u (h.sound.stacked u (hmember u hu)), hu⟩⟩
  have hdone (u : Bytes) : st.Visited u ∧ u ∉ base.stack ↔ st.Done u ∨ u ∈ upper ++ [v] := by
    constructor
    · rintro ⟨hvisited, hout⟩
      by_cases hin : u ∈ st.stack
      · exact .inr (((mem_stack_iff hstack).1 hin).resolve_right hout)
      · exact .inl ⟨hvisited, hin⟩
    · rintro (⟨hvisited, hout⟩ | hin)
      · exact ⟨hvisited, fun hin => hout (hbase u hin)⟩
      · exact ⟨h.sound.stacked u (hmember u hin), h.notMem_base hstack hin⟩
  have hne (u : Bytes) (hu : u ∈ base.stack) : u ≠ v := by
    rintro rfl
    exact Nat.lt_irrefl _ (h.number_base hu)
  constructor
  case known => exact h.sound.known
  case numbered => exact h.sound.numbered
  case stacked => exact fun u hu => h.sound.stacked u (hbase u hu)
  case sorted =>
    have hsorted := h.sound.sorted
    rw [hstack] at hsorted
    exact (List.pairwise_append.1 hsorted).2.1.of_cons
  case active => exact h.before.active
  case closed =>
    intro u hu w hw
    apply (hdone w).2
    rcases (hdone u).1 hu with hu | hu
    · exact .inl (h.sound.closed u hu w hw)
    · exact (h.successor_member hstack hroot hu hw).symm
  case scanned =>
    intro u hu hout
    refine h.sound.scanned u (hbase u hu) fun hpath => ?_
    exact hout ((List.mem_cons.1 hpath).resolve_left (hne u hu))
  case down => exact fun p hp u hu => h.sound.down p (List.mem_cons_of_mem v hp) u (hbase u hu)
  case up =>
    intro u hu
    obtain ⟨p, hp, hle, hreaches⟩ := h.sound.up u (hbase u hu)
    refine ⟨p, (List.mem_cons.1 hp).resolve_left ?_, hle, hreaches⟩
    rintro rfl
    have hlt := h.number_base hu
    omega
  case nodup =>
    rw [List.flatten_append, List.flatten_singleton, List.nodup_append]
    refine ⟨h.sound.nodup, hnames.filter _, fun u hu w hw => ?_⟩
    rintro rfl
    exact ((h.sound.found u).1 hu).2 (hmember u ((hfilter u).1 hw))
  case found =>
    intro u
    rw [List.flatten_append, List.flatten_singleton, List.mem_append, hfilter, h.sound.found]
    exact (hdone u).symm
  case component =>
    refine List.forall_mem_append.2 ⟨h.sound.component, List.forall_mem_singleton.2 ⟨?_, ?_, ?_⟩⟩
    · exact List.ne_nil_of_mem ((hfilter v).2 (by simp))
    · exact List.filter_sublist
    · intro u hu w
      obtain ⟨hto, hback⟩ := (h.mem_members_iff hstack hroot).1 ((hfilter u).1 hu)
      rw [hfilter, h.mem_members_iff hstack hroot]
      constructor
      · exact fun ⟨hw, hw'⟩ => ⟨hback.trans hw, hw'.trans hto⟩
      · exact fun ⟨hw, hw'⟩ => ⟨hto.trans hw, hw'.trans hback⟩

theorem Scanning.sound_stay (hroot : st.lowOf v ≠ st.number v) : Sound g names st path := by
  have hv : v ∈ st.stack := by simp [hstack]
  have hlt : st.lowOf v < st.number v := Nat.lt_of_le_of_ne h.low_le hroot
  obtain ⟨w, hw, hlow, hreaches⟩ := h.reached
  have hleaves : ∃ p ∈ path, st.number p ≤ st.number v ∧ g.Reaches v p := by
    obtain ⟨p, hp, hle, hup⟩ := h.sound.up w hw
    refine ⟨p, (List.mem_cons.1 hp).resolve_left ?_, by omega, hreaches.trans hup⟩
    rintro rfl
    omega
  have hscanned : ∀ u ∈ st.stack, u ∉ path → ∀ w ∈ g.successors u, st.Visited w := by
    intro u hu hout
    by_cases hne : u = v
    · rw [hne]
      exact fun w hw => (h.seen w hw).1
    · exact h.sound.scanned u hu fun hpath => hout ((List.mem_cons.1 hpath).resolve_left hne)
  have hup : ∀ u ∈ st.stack, ∃ p ∈ path, st.number p ≤ st.number u ∧ g.Reaches u p := by
    intro u hu
    obtain ⟨p, hp, hle, hup⟩ := h.sound.up u hu
    rcases List.mem_cons.1 hp with rfl | hp
    · obtain ⟨q, hq, hle', hreaches'⟩ := hleaves
      exact ⟨q, hq, Nat.le_trans hle' hle, hup.trans hreaches'⟩
    · exact ⟨p, hp, hle, hup⟩
  exact ⟨h.sound.known, h.sound.numbered, h.sound.stacked, h.sound.sorted, h.before.active.trans
    (hstack ▸ (List.sublist_cons_self v _).trans (List.sublist_append_right upper _)),
    h.sound.closed, hscanned, fun p hp => h.sound.down p (List.mem_cons_of_mem v hp), hup,
    h.sound.nodup, h.sound.found, h.sound.component⟩

end Leave

theorem Scanning.leave (hnames : names.Nodup)
    (h : Scanning g names path base v (g.successors v) st) :
    Visits g names path base v
      (if st.lowOf v == base.index.length then st.popTo names v else st) := by
  obtain ⟨upper, hstack⟩ := h.stack
  rw [← h.number_eq]
  split
  · rename_i hroot
    have hroot : st.lowOf v = st.number v := by simpa using hroot
    have hv : v ∉ upper := fun hin => Nat.lt_irrefl _ (h.number_upper hstack hin)
    have hsound := h.sound_popTo hstack hnames hroot
    rw [popTo_eq hstack hv] at hsound ⊢
    constructor
    case sound => exact hsound
    case extends_ =>
      exact ⟨h.extends_.kept, h.extends_.fresh, h.extends_.length, [], rfl,
        fun _ hu => (nomatch hu)⟩
    case lows => exact h.lows
    case visited => exact h.visited
    case low_le => exact h.low_le
    case reached => exact .inl (Nat.le_of_eq (hroot.trans h.number_eq).symm)
    case lowest => exact fun u hu hout => absurd (h.before.stacked u hu) hout
  · rename_i hroot
    have hroot : st.lowOf v ≠ st.number v := by simpa using hroot
    have hkept (w : Bytes) (hw : w ∈ base.stack) : st.number w = base.number w :=
      h.extends_.number (h.before.stacked w hw)
    constructor
    case sound => exact h.sound_stay hstack hroot
    case extends_ => exact h.extends_
    case lows => exact h.lows
    case visited => exact h.visited
    case low_le => exact h.low_le
    case reached =>
      obtain ⟨w, hw, hlow, hreaches⟩ := h.reached
      have hle := h.low_le
      have hbase : w ∈ base.stack := ((mem_stack_iff hstack).1 hw).resolve_left fun hin => by
        have hmember := h.number_members hstack hin
        omega
      exact .inr ⟨w, hbase, by rw [hlow, hkept w hbase], hreaches⟩
    case lowest =>
      intro u hu hout w hw hin
      have hmember : u ∈ upper ++ [v] :=
        ((mem_stack_iff hstack).1 hu).resolve_right fun hbase => hout (h.before.stacked u hbase)
      exact hkept w hin ▸ h.lowOf_le hstack hmember hw hin

/-! ## Enough steps -/

def pending (g : Graph) (names : List Bytes) (st : Search) : Nat :=
  (names.map fun v => if (st.indexOf? v).isSome then 0 else (g.successors v).length + 1).sum

theorem pending_cons (g : Graph) (v : Bytes) (names : List Bytes) (st : Search) :
    pending g (v :: names) st =
      (if (st.indexOf? v).isSome then 0 else (g.successors v).length + 1) + pending g names st := rfl

theorem Extends.pending_le (h : Extends st st') (g : Graph) (names : List Bytes) :
    pending g names st' ≤ pending g names st := by
  induction names with
  | nil => exact Nat.le_refl _
  | cons v names ih =>
      rw [pending_cons, pending_cons]
      refine Nat.add_le_add ?_ ih
      by_cases hv : st.Visited v
      · exact Nat.le_of_eq (by rw [h.kept v hv])
      · have hnone : st.indexOf? v = none := by simpa [Visited] using hv
        rw [hnone]
        split
        · exact Nat.zero_le _
        · exact Nat.le_refl _

theorem pending_lower (g : Graph) (names : List Bytes) (st : Search) (v : Bytes) (n : Nat) :
    pending g names (st.lower v n) = pending g names st := rfl

theorem pending_enter (hv : v ∈ names) (hnew : ¬st.Visited v) :
    pending g names (st.enter v) + (g.successors v).length + 1 ≤ pending g names st := by
  have hnone : st.indexOf? v = none := by simpa [Visited] using hnew
  induction names with
  | nil => cases hv
  | cons u names ih =>
      have hle := (extends_enter hnew).pending_le g names
      rw [pending_cons, pending_cons, indexOf?_enter]
      by_cases hu : v = u
      · subst hu
        simp only [hnone, if_true, Option.isSome_some, Option.isSome_none, Bool.false_eq_true,
          if_false]
        omega
      · have hrest := ih ((List.mem_cons.1 hv).resolve_left hu)
        rw [if_neg hu]
        omega

section Visit

variable (hnames : names.Nodup) (hover : ∀ v ∈ names, ∀ w ∈ g.successors v, w ∈ names)

include hnames hover

/-- With as many steps as there are unvisited vertices and edges from them, a vertex is visited. -/
theorem visits (fuel : Nat) :
    (∀ st v path, Sound g names st path → v ∈ names → ¬st.Visited v →
      (∀ p ∈ path, g.Reaches p v) → pending g names st ≤ fuel →
      Visits g names path st v (visit g names fuel st v)) ∧
    ∀ base v path seen ws st, Scanning g names path base v seen st → g.successors v = seen ++ ws →
      pending g names st + ws.length ≤ fuel →
      Scanning g names path base v (g.successors v) (visitAll g names fuel st v ws) := by
  induction fuel with
  | zero =>
      constructor
      · intro st v path hsound hv hnew hpath hfuel
        have hpending := pending_enter (g := g) hv hnew
        omega
      · intro base v path seen ws st hscan hws hfuel
        obtain rfl : ws = [] := List.eq_nil_of_length_eq_zero (by omega)
        rw [hws, List.append_nil]
        exact hscan
  | succ fuel ih =>
      obtain ⟨ihvisit, ihall⟩ := ih
      constructor
      · intro st v path hsound hv hnew hpath hfuel
        have hpending := pending_enter (g := g) hv hnew
        have hscan := ihall st v path [] (g.successors v) (st.enter v)
          (scanning_enter hsound hv hnew hpath) rfl (by omega)
        exact hscan.leave hnames
      · intro base v path seen ws st hscan hws hfuel
        cases ws with
        | nil =>
            rw [hws, List.append_nil]
            exact hscan
        | cons w ws =>
            have hedge : w ∈ g.successors v := by simp [hws]
            have hrest : g.successors v = (seen ++ [w]) ++ ws := by simp [hws]
            rw [List.length_cons] at hfuel
            cases hindex : st.indexOf? w with
            | some i =>
                simp only [visitAll, hindex]
                refine ihall base v path _ ws _ (hscan.pass hedge hindex) hrest ?_
                split
                · rw [pending_lower]
                  omega
                · omega
            | none =>
                have hnew : ¬st.Visited w := fun hvisited => hvisited hindex
                have hw : w ∈ names := hover v (hscan.sound.known v hscan.visited) w hedge
                have hvisits := ihvisit st w (v :: path) hscan.sound hw hnew
                  (fun p hp => (hscan.path_reaches p hp).tail hedge) (by omega)
                simp only [visitAll, hindex]
                refine ihall base v path _ ws _ (hscan.child hedge hvisits) hrest ?_
                have hle := hvisits.extends_.pending_le g names
                rw [pending_lower]
                omega

theorem sound_foldl {fuel : Nat} (vs : List Bytes) (hvs : ∀ v ∈ vs, v ∈ names)
    (hst : Sound g names st []) (hfuel : pending g names st ≤ fuel) :
    let st' := vs.foldl
      (fun st v => if (st.indexOf? v).isSome then st else visit g names fuel st v) st
    Sound g names st' [] ∧ (∀ v, st.Visited v → st'.Visited v) ∧ ∀ v ∈ vs, st'.Visited v := by
  induction vs generalizing st with
  | nil => exact ⟨hst, fun _ hv => hv, fun _ hv => (nomatch hv)⟩
  | cons v vs ih =>
      have hv : v ∈ names := hvs v List.mem_cons_self
      have hvs : ∀ v ∈ vs, v ∈ names := fun v hv => hvs v (List.mem_cons_of_mem _ hv)
      rw [List.foldl_cons]
      split
      · rename_i hold
        have hold : st.Visited v := Option.isSome_iff_ne_none.1 hold
        obtain ⟨hsound, hkept, hvisited⟩ := ih hvs hst hfuel
        exact ⟨hsound, hkept, List.forall_mem_cons.2 ⟨hkept v hold, hvisited⟩⟩
      · rename_i hnew
        have hnew : ¬st.Visited v := fun hvisited => hnew (Option.isSome_iff_ne_none.2 hvisited)
        have hvisits := (visits hnames hover fuel).1 st v [] hst hv hnew
          (fun p hp => (nomatch hp)) hfuel
        have hext := hvisits.extends_
        obtain ⟨hsound, hkept, hvisited⟩ :=
          ih hvs hvisits.sound (Nat.le_trans (hext.pending_le g names) hfuel)
        refine ⟨hsound, fun u hu => hkept u (hext.visited hu), ?_⟩
        exact List.forall_mem_cons.2 ⟨hkept v hvisits.visited, hvisited⟩

end Visit

theorem sum_successors_le (hnames : names.Nodup) (g : Graph) :
    (names.map fun v => (g.successors v).length).sum ≤ (g.map (·.2.length)).sum := by
  have hone (k : Bytes) (n : Nat) (f : Bytes → Nat) :
      (names.map fun v => if k = v then n else f v).sum ≤ n + (names.map f).sum := by
    induction names with
    | nil => exact Nat.zero_le _
    | cons v names ih =>
        obtain ⟨hv, hnames⟩ := List.nodup_cons.1 hnames
        simp only [List.map_cons, List.sum_cons]
        by_cases hk : k = v
        · have hrest : names.map (fun u => if k = u then n else f u) = names.map f :=
            List.map_congr_left fun u hu => if_neg fun heq => by
              rw [← heq, hk] at hu
              exact hv hu
          rw [if_pos hk, hrest]
          omega
        · have hle := ih hnames
          rw [if_neg hk]
          omega
  induction g with
  | nil => simp [Graph.successors]
  | cons entry g ih =>
      obtain ⟨k, ws⟩ := entry
      have hsuccessors (v : Bytes) : (Graph.successors ((k, ws) :: g) v).length =
          if k = v then ws.length else (Graph.successors g v).length := by
        simp only [Graph.successors, List.find?_cons]
        by_cases hk : k = v
        · simp [hk]
        · simp [hk, beq_eq_false_iff_ne.2 hk]
      have hle := hone k ws.length fun v => (Graph.successors g v).length
      simp only [hsuccessors, List.map_cons, List.sum_cons]
      omega

theorem pending_initial_le (hnames : names.Nodup) (g : Graph) :
    pending g names ⟨[], [], [], []⟩ ≤ names.length + (g.map (·.2.length)).sum := by
  have hle := sum_successors_le hnames g
  have hpending : pending g names ⟨[], [], [], []⟩ =
      (names.map fun v => (g.successors v).length).sum + names.length := by
    clear hle hnames
    induction names with
    | nil => rfl
    | cons v names ih =>
        rw [pending_cons, ih, List.map_cons, List.sum_cons, List.length_cons]
        simp only [indexOf?, List.find?_nil, Option.map_none, Option.isSome_none,
          Bool.false_eq_true, if_false]
        omega
  omega

end Search

/-- What the search finds in a graph over some names: every name is in one component, in which the
names stand in their order, and with it are exactly those it reaches and is reached from. -/
theorem components_spec {names : List Bytes} {g : Graph} (hnames : names.Nodup)
    (hover : ∀ v ∈ names, ∀ w ∈ g.successors v, w ∈ names) :
    (components names g).flatten.Perm names ∧
      ∀ c ∈ components names g, c ≠ [] ∧ c.Sublist names ∧
        ∀ v ∈ c, ∀ w, w ∈ c ↔ g.Reaches v w ∧ g.Reaches w v := by
  have hpending := Search.pending_initial_le hnames g
  have hedges : (g.map (·.2.length)).sum = g.foldr (fun v n => v.2.length + n) 0 := by
    rw [List.sum_eq_foldr, List.foldr_map]
  rw [hedges] at hpending
  obtain ⟨hsound, -, hvisited⟩ := Search.sound_foldl hnames hover names (fun _ hv => hv)
    (Search.sound_initial g names)
    (Nat.le_trans hpending (by omega :
      _ ≤ 2 * (names.length + g.foldr (fun v n => v.2.length + n) 0 + 2)))
  have hstack := hsound.stack_eq_nil
  refine ⟨(List.perm_ext_iff_of_nodup hsound.nodup hnames).2 fun v => ?_, hsound.component⟩
  rw [hsound.found, Search.Done, hstack]
  exact ⟨fun hv => hsound.known v hv.1, fun hv => ⟨hvisited v hv, List.not_mem_nil⟩⟩

end TagLoom.TagSet

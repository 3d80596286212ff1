import TagLoom.Inference
import TagLoom.Proofs.Template.Layout

/-!
# Reads in the order of the source

The reads of a body stand in the order of the source when its nodes do, and when what stands in the
blocks of a call, in whichever block, stands apart.  Which loop variables are in scope makes no
difference to where the reads stand.
-/

namespace TagLoom.Inference

open Pos (Between Ascending)

/-! ## Places of reads -/

def places (rs : List Read) : List Pos := rs.map (·.pos)

@[simp] theorem places_append (rs rs' : List Read) : places (rs ++ rs') = places rs ++ places rs' :=
  List.map_append

theorem places_flatMap {α : Type} (l : List α) (f : α → List Read) :
    places (l.flatMap f) = l.flatMap fun a => places (f a) :=
  List.map_flatMap

def blockNodes (args : List Arg) : List Node :=
  args.flatMap fun
    | .content _ _ body => body
    | .text _ _ _ | .expr _ _ _ => []

theorem bodyReads_eq (scope : List Bytes) (ns : List Node) :
    bodyReads scope ns = ns.flatMap (nodeReads scope) := by
  induction ns with
  | nil => rfl
  | cons n ns ih => rw [bodyReads, ih, List.flatMap_cons]

theorem siblingReads_eq (scope : List Bytes) (ns : List Node) :
    siblingReads scope ns = ns.map fun n => ⟨n.pos, nodeReads scope n⟩ := by
  induction ns with
  | nil => rfl
  | cons n ns ih => rw [siblingReads, ih, List.map_cons]

theorem blockReads_eq (scope : List Bytes) (args : List Arg) :
    blockReads scope args = (blockNodes args).map fun n => ⟨n.pos, nodeReads scope n⟩ := by
  induction args with
  | nil => rfl
  | cons a args ih =>
      cases a with
      | content pos name body =>
          rw [blockReads, ih, siblingReads_eq, ← List.map_append]
          rfl
      | _ => exact ih

theorem attrReads_append (scope : List Bytes) (args args' : List Arg) :
    attrReads scope (args ++ args') = attrReads scope args ++ attrReads scope args' := by
  induction args with
  | nil => rfl
  | cons a args ih => cases a <;> simp [attrReads, ih]

theorem inSourceOrder_blockReads (scope : List Bytes) (args : List Arg) :
    inSourceOrder (blockReads scope args) =
      ((blockNodes args).mergeSort fun a b => !b.pos.before a.pos).flatMap (nodeReads scope) := by
  have hsort := List.map_mergeSort (f := fun n => (⟨n.pos, nodeReads scope n⟩ : NodeReads))
    (r := fun a b => !b.pos.before a.pos) (s := fun a b => !b.pos.before a.pos)
    (l := blockNodes args) fun _ _ _ _ => rfl
  rw [inSourceOrder, blockReads_eq, ← hsort, List.flatMap_map]

theorem places_attrReads (scope scope' : List Bytes) (args : List Arg) :
    places (attrReads scope args) = places (attrReads scope' args) := by
  have hparts (parts : List Part) :
      places (partReads scope parts) = places (partReads scope' parts) := by
    rw [places, places, partReads, partReads, List.map_filterMap, List.map_filterMap]
    refine List.filterMap_congr fun part _ => ?_
    cases part <;> rfl
  induction args with
  | nil => rfl
  | cons a args ih =>
      cases a with
      | text pos name parts => rw [attrReads, attrReads, places_append, places_append, ih, hparts]
      | expr pos name e => exact congrArg (pos :: ·) ih
      | content pos name body => exact ih

private theorem places_body {scope scope' : List Bytes} {ns : List Node}
    (h : ∀ n ∈ ns, places (nodeReads scope n) = places (nodeReads scope' n)) :
    places (bodyReads scope ns) = places (bodyReads scope' ns) := by
  rw [bodyReads_eq, bodyReads_eq, places_flatMap, places_flatMap]
  exact List.flatMap_congr h

mutual

theorem places_nodeReads (scope scope' : List Bytes) (n : Node) :
    places (nodeReads scope n) = places (nodeReads scope' n) := by
  cases n with
  | literal pos s => rfl
  | interpolation pos e esc => rfl
  | cond pos e body other =>
      have hbody := places_body (places_each scope scope' body)
      cases other with
      | none => exact congrArg (pos :: ·) hbody
      | some other =>
          have hother := places_body (places_each scope scope' other)
          change pos :: places (bodyReads scope body ++ bodyReads scope other) =
            pos :: places (bodyReads scope' body ++ bodyReads scope' other)
          rw [places_append, places_append, hbody, hother]
  | loop pos e item index body =>
      exact congrArg (pos :: ·) (places_body (places_each _ _ body))
  | invocation pos name args =>
      rw [nodeReads, nodeReads, places_append, places_append, places_attrReads scope scope',
        inSourceOrder_blockReads, inSourceOrder_blockReads, places_flatMap, places_flatMap]
      refine congrArg _ (List.flatMap_congr fun n hn => ?_)
      exact places_block scope scope' args n (List.mem_mergeSort.1 hn)

theorem places_each (scope scope' : List Bytes) (ns : List Node) :
    ∀ n ∈ ns, places (nodeReads scope n) = places (nodeReads scope' n) := by
  cases ns with
  | nil => nofun
  | cons n ns =>
      exact List.forall_mem_cons.2 ⟨places_nodeReads scope scope' n, places_each scope scope' ns⟩

theorem places_block (scope scope' : List Bytes) (args : List Arg) :
    ∀ n ∈ blockNodes args, places (nodeReads scope n) = places (nodeReads scope' n) := by
  cases args with
  | nil => nofun
  | cons a args =>
      have hargs := places_block scope scope' args
      cases a with
      | content pos name body =>
          exact List.forall_mem_append.2 ⟨places_each scope scope' body, hargs⟩
      | _ => exact hargs

end

theorem places_bodyReads (scope scope' : List Bytes) (ns : List Node) :
    places (bodyReads scope ns) = places (bodyReads scope' ns) :=
  places_body (places_each scope scope' ns)

/-! ## Nodes between offsets -/

def spots (n : Node) : List Pos :=
  match places (nodeReads [] n) with
  | [] => []
  | p :: ps => n.pos :: p :: ps

theorem mem_spots {n : Node} {p : Pos} (hp : p ∈ places (nodeReads [] n)) :
    p ∈ spots n ∧ n.pos ∈ spots n := by
  unfold spots
  split
  · rename_i hnone
    rw [hnone] at hp
    cases hp
  · rename_i hsome
    rw [hsome] at hp
    exact ⟨List.mem_cons_of_mem _ hp, List.mem_cons_self⟩

theorem spots_of_blank {n : Node} (h : n.isBlankLiteral = true) : spots n = [] := by
  cases n with
  | literal pos s => rfl
  | _ => cases h

/-- Everything of a node stands before everything of another. -/
def Before (n m : Node) : Prop := ∀ p ∈ spots n, ∀ q ∈ spots m, p.before q = true

def Apart (n m : Node) : Prop := Before n m ∨ Before m n

theorem Apart.symm {n m : Node} (h : Apart n m) : Apart m n := Or.symm h

variable {source : Bytes} {lo lo' mid hi hi' : Nat} {n m : Node} {ns ns' : List Node}

/-- A node stands between two offsets of a source, and its reads are in order. -/
structure NodePlaced (source : Bytes) (lo hi : Nat) (n : Node) : Prop where
  order : (places (nodeReads [] n)).Pairwise fun p q => p.before q = true
  between : ∀ p ∈ spots n, Between source lo hi p

theorem NodePlaced.mono (h : NodePlaced source lo hi n) (hlo : lo' ≤ lo) (hhi : hi ≤ hi') :
    NodePlaced source lo' hi' n :=
  ⟨h.order, fun p hp => (h.between p hp).mono hlo hhi⟩

theorem NodePlaced.before (hn : NodePlaced source lo mid n) (hm : NodePlaced source mid hi m) :
    Before n m :=
  fun p hp q hq => (hn.between p hp).before (hm.between q hq)

theorem nodePlaced_of_ascending {p : Pos} (hp : n.pos = p) (hbetween : Between source lo hi p)
    (h : Ascending source lo hi (places (nodeReads [] n))) : NodePlaced source lo hi n := by
  refine ⟨h.order, fun q hq => ?_⟩
  unfold spots at hq
  split at hq
  · cases hq
  · rename_i hsome
    rw [hsome] at h
    rcases List.mem_cons.1 hq with rfl | hq
    · exact hp ▸ hbetween
    · exact h.between q hq

/-- Nodes one behind the other between two offsets of a source. -/
structure NodesPlaced (source : Bytes) (lo hi : Nat) (ns : List Node) : Prop where
  each : ∀ n ∈ ns, NodePlaced source lo hi n
  order : ns.Pairwise Before

theorem NodesPlaced.nil : NodesPlaced source lo hi [] := ⟨nofun, .nil⟩

theorem NodesPlaced.mono (h : NodesPlaced source lo hi ns) (hlo : lo' ≤ lo) (hhi : hi ≤ hi') :
    NodesPlaced source lo' hi' ns :=
  ⟨fun n hn => (h.each n hn).mono hlo hhi, h.order⟩

theorem NodesPlaced.concat (hns : NodesPlaced source lo mid ns) (hn : NodePlaced source mid hi n)
    (hlo : lo ≤ mid) (hhi : mid ≤ hi) : NodesPlaced source lo hi (ns ++ [n]) := by
  refine ⟨List.forall_mem_append.2 ⟨fun m hm => (hns.each m hm).mono (Nat.le_refl lo) hhi,
    List.forall_mem_singleton.2 (hn.mono hlo (Nat.le_refl hi))⟩, ?_⟩
  refine List.pairwise_append.2 ⟨hns.order, List.pairwise_singleton _ _, fun m hm n' hn' => ?_⟩
  rw [List.mem_singleton.1 hn']
  exact (hns.each m hm).before hn

private theorem order_of_before {l : List Node}
    (heach : ∀ n ∈ l, (places (nodeReads [] n)).Pairwise fun p q => p.before q = true)
    (horder : l.Pairwise fun n m => ∀ p ∈ places (nodeReads [] n), ∀ q ∈ places (nodeReads [] m),
      p.before q = true) :
    (l.flatMap fun n => places (nodeReads [] n)).Pairwise fun p q => p.before q = true :=
  List.pairwise_flatMap.2 ⟨heach, horder⟩

theorem NodesPlaced.ascending (h : NodesPlaced source lo hi ns) (scope : List Bytes) :
    Ascending source lo hi (places (bodyReads scope ns)) := by
  rw [places_bodyReads scope [], bodyReads_eq, places_flatMap]
  refine ⟨order_of_before (fun n hn => (h.each n hn).order) (h.order.imp ?_), fun p hp => ?_⟩
  · exact fun hbefore p hp q hq => hbefore p (mem_spots hp).1 q (mem_spots hq).1
  · obtain ⟨n, hn, hp⟩ := List.mem_flatMap.1 hp
    exact (h.each n hn).between p (mem_spots hp).1

/-! ## Elements -/

variable {p : Pos} {a : Nat}

theorem nodePlaced_interpolation (hp : Between source lo hi p) (e : Expression)
    (esc : Option Escape) : NodePlaced source lo hi (.interpolation p e esc) :=
  nodePlaced_of_ascending rfl hp (.singleton hp)

private theorem ascending_cons {ps : List Pos} (hp : Between source a (a + 1) p)
    (hps : Ascending source (a + 1) hi ps) (ha : a < hi) : Ascending source a hi (p :: ps) :=
  (Ascending.singleton hp).append hps (Nat.le_succ a) ha

theorem nodePlaced_loop (hp : Between source a (a + 1) p) (ha : a < hi) (e : Expression)
    (item index : Bytes) (h : NodesPlaced source (a + 1) hi ns) :
    NodePlaced source a hi (.loop p e item index ns) :=
  nodePlaced_of_ascending rfl (hp.mono (Nat.le_refl a) ha) (ascending_cons hp (h.ascending _) ha)

theorem nodePlaced_cond (hp : Between source a (a + 1) p) (ha : a < hi) (e : Expression)
    (h : NodesPlaced source (a + 1) hi ns) : NodePlaced source a hi (.cond p e ns none) :=
  nodePlaced_of_ascending rfl (hp.mono (Nat.le_refl a) ha) (ascending_cons hp (h.ascending _) ha)

theorem nodePlaced_cond_else (hp : Between source a (a + 1) p) (ha : a < hi) (e : Expression)
    (h : NodesPlaced source (a + 1) hi ns) (h' : NodesPlaced source (a + 1) hi ns')
    (hbefore : ∀ n ∈ ns, ∀ m ∈ ns', Before n m) :
    NodePlaced source a hi (.cond p e ns (some ns')) := by
  have hboth : NodesPlaced source (a + 1) hi (ns ++ ns') :=
    ⟨List.forall_mem_append.2 ⟨h.each, h'.each⟩,
      List.pairwise_append.2 ⟨h.order, h'.order, hbefore⟩⟩
  refine nodePlaced_of_ascending rfl (hp.mono (Nat.le_refl a) ha) (ascending_cons hp ?_ ha)
  have hreads := hboth.ascending []
  rwa [bodyReads_eq, List.flatMap_append, ← bodyReads_eq, ← bodyReads_eq] at hreads

/-- What a call is made of stands between two offsets: its attributes one behind the other, and
behind them what stands in its slots and beside them, apart from each other. -/
structure CallPlaced (source : Bytes) (lo hi : Nat) (args slots : List Arg) (ns : List Node) :
    Prop where
  attrs : Ascending source lo hi (places (attrReads [] args))
  noBlock : ∀ a ∈ args, Arg.isContent a = false
  blocks : ∀ a ∈ slots, Arg.isContent a = true
  each : ∀ n ∈ blockNodes slots ++ ns, NodePlaced source lo hi n
  apart : (blockNodes slots ++ ns).Pairwise Apart
  behind : ∀ p ∈ places (attrReads [] args), ∀ n ∈ blockNodes slots ++ ns, ∀ q ∈ spots n,
    p.before q = true

theorem CallPlaced.mono {args slots : List Arg} (h : CallPlaced source lo hi args slots ns)
    (hlo : lo' ≤ lo) (hhi : hi ≤ hi') : CallPlaced source lo' hi' args slots ns :=
  ⟨h.attrs.mono hlo hhi, h.noBlock, h.blocks, fun n hn => (h.each n hn).mono hlo hhi, h.apart,
    h.behind⟩

theorem CallPlaced.concat {args slots : List Arg} (h : CallPlaced source lo mid args slots ns)
    (hn : NodePlaced source mid hi n) (hlo : lo ≤ mid) (hhi : mid ≤ hi) :
    CallPlaced source lo hi args slots (ns ++ [n]) := by
  refine ⟨h.attrs.mono (Nat.le_refl lo) hhi, h.noBlock, h.blocks, ?_, ?_, ?_⟩
  · rw [← List.append_assoc]
    exact List.forall_mem_append.2 ⟨fun m hm => (h.each m hm).mono (Nat.le_refl lo) hhi,
      List.forall_mem_singleton.2 (hn.mono hlo (Nat.le_refl hi))⟩
  · rw [← List.append_assoc]
    refine List.pairwise_append.2 ⟨h.apart, List.pairwise_singleton _ _, fun m hm n' hn' => ?_⟩
    rw [List.mem_singleton.1 hn']
    exact .inl ((h.each m hm).before hn)
  · rw [← List.append_assoc]
    intro p hp
    refine List.forall_mem_append.2 ⟨h.behind p hp, List.forall_mem_singleton.2 fun q hq => ?_⟩
    exact (h.attrs.between p hp).before (hn.between q hq)

theorem CallPlaced.addSlot {args slots : List Arg} (h : CallPlaced source lo mid args slots ns)
    (hns' : NodesPlaced source mid hi ns') (hlo : lo ≤ mid) (hhi : mid ≤ hi) (pos : Pos)
    (name : Bytes) : CallPlaced source lo hi args (slots ++ [Arg.content pos name ns']) ns := by
  have hblocks : blockNodes (slots ++ [Arg.content pos name ns']) = blockNodes slots ++ ns' := by
    simp [blockNodes]
  have hperm : (blockNodes slots ++ ns' ++ ns).Perm (blockNodes slots ++ ns ++ ns') := by
    rw [List.append_assoc, List.append_assoc]
    exact List.perm_append_comm.append_left _
  have hmem {P : Node → Prop} (hP : ∀ n ∈ blockNodes slots ++ ns, P n) (hP' : ∀ n ∈ ns', P n) :
      ∀ n ∈ blockNodes (slots ++ [Arg.content pos name ns']) ++ ns, P n := by
    rw [hblocks]
    exact fun n hn => List.forall_mem_append.2 ⟨hP, hP'⟩ n (hperm.mem_iff.1 hn)
  refine ⟨h.attrs.mono (Nat.le_refl lo) hhi, h.noBlock, ?_, ?_, ?_, fun p hp => ?_⟩
  · exact List.forall_mem_append.2 ⟨h.blocks, List.forall_mem_singleton.2 rfl⟩
  · exact hmem (fun n hn => (h.each n hn).mono (Nat.le_refl lo) hhi)
      fun n hn => (hns'.each n hn).mono hlo (Nat.le_refl hi)
  · rw [hblocks, hperm.pairwise_iff Apart.symm]
    refine List.pairwise_append.2 ⟨h.apart, hns'.order.imp .inl, fun n hn m hm => ?_⟩
    exact .inl ((h.each n hn).before (hns'.each m hm))
  · exact hmem (h.behind p hp) fun n hn q hq =>
      (h.attrs.between p hp).before ((hns'.each n hn).between q hq)

theorem Apart.reads (h : Apart n m) (hpos : m.pos.before n.pos = false) :
    ∀ p ∈ places (nodeReads [] n), ∀ q ∈ places (nodeReads [] m), p.before q = true := by
  intro p hp q hq
  rcases h with h | h
  · exact h p (mem_spots hp).1 q (mem_spots hq).1
  · rw [h _ (mem_spots hq).2 _ (mem_spots hp).2] at hpos
    cases hpos

theorem order_mergeSort (heach : ∀ n ∈ ns, (places (nodeReads [] n)).Pairwise
      fun p q => p.before q = true) (h : ns.Pairwise Apart) :
    ((ns.mergeSort fun a b => !b.pos.before a.pos).flatMap fun n => places (nodeReads [] n)).Pairwise
      fun p q => p.before q = true := by
  have hsorted : (ns.mergeSort fun a b => !b.pos.before a.pos).Pairwise
      fun a b => (!b.pos.before a.pos) = true := by
    refine List.pairwise_mergeSort (fun a b c hab hbc => ?_) (fun a b => ?_) ns
    · exact Pos.not_before_trans hab hbc
    · exact Pos.not_before_total a.pos b.pos
  have hapart := ((List.mergeSort_perm ns fun a b => !b.pos.before a.pos).pairwise_iff
    Apart.symm).2 h
  refine order_of_before (fun n hn => heach n (List.mem_mergeSort.1 hn)) ?_
  exact hapart.imp₂ (fun n m hapart hpos => hapart.reads (by simpa using hpos)) hsorted

theorem attrReads_of_isContent {args : List Arg} (h : ∀ a ∈ args, Arg.isContent a = true)
    (scope : List Bytes) : attrReads scope args = [] := by
  induction args with
  | nil => rfl
  | cons a args ih =>
      obtain ⟨ha, hargs⟩ := List.forall_mem_cons.1 h
      cases a with
      | content pos name body => exact ih hargs
      | _ => cases ha

theorem blockNodes_of_not_isContent {args : List Arg} (h : ∀ a ∈ args, Arg.isContent a = false) :
    blockNodes args = [] := by
  refine List.flatMap_eq_nil_iff.2 fun a ha => ?_
  cases a with
  | content pos name body => cases h _ ha
  | _ => rfl

/-- The blocks of a call: its slots, and what stands beside them unless that is blank. -/
theorem perm_contentArgs (slots : List Arg) (ns : List Node) :
    (∀ a ∈ Template.contentArgs slots ns, a ∈ slots ∨ Arg.isContent a = true) ∧
      ∃ l, (blockNodes (Template.contentArgs slots ns)).Perm l ∧ l.Sublist (blockNodes slots ++ ns) := by
  unfold Template.contentArgs
  extract_lets implicit
  have himplicit : (∀ a ∈ implicit, Arg.isContent a = true) ∧
      (blockNodes implicit).Sublist ns := by
    simp only [implicit]
    split
    · split
      · exact ⟨nofun, List.nil_sublist _⟩
      · exact ⟨List.forall_mem_singleton.2 rfl, by simp [blockNodes]⟩
    · exact ⟨nofun, List.nil_sublist _⟩
  refine ⟨fun a ha => ?_, blockNodes slots ++ blockNodes implicit, ?_, ?_⟩
  · exact (List.mem_append.1 (List.mem_mergeSort.1 ha)).imp_right (himplicit.1 a)
  · have hperm := (List.mergeSort_perm (slots ++ implicit) fun a b => !b.pos.before a.pos)
    have hnodes := hperm.flatMap_right fun
      | .content _ _ body => body
      | .text _ _ _ | .expr _ _ _ => []
    rwa [List.flatMap_append] at hnodes
  · exact himplicit.2.append_left _

theorem nodePlaced_call (hp : Between source a (a + 1) p) (ha : a < hi) (name : Bytes)
    {args slots : List Arg} (h : CallPlaced source (a + 1) hi args slots ns) :
    NodePlaced source a hi (.invocation p name (args ++ Template.contentArgs slots ns)) := by
  obtain ⟨hblocks, l, hperm, hsub⟩ := perm_contentArgs slots ns
  have hcontent : ∀ b ∈ Template.contentArgs slots ns, Arg.isContent b = true :=
    fun b hb => (hblocks b hb).elim (h.blocks b) id
  have hnodes : blockNodes (args ++ Template.contentArgs slots ns) =
      blockNodes (Template.contentArgs slots ns) := by
    have hnone := blockNodes_of_not_isContent h.noBlock
    rw [blockNodes] at hnone
    rw [blockNodes, List.flatMap_append, hnone, List.nil_append]
    rfl
  have hmem : ∀ n ∈ blockNodes (Template.contentArgs slots ns), n ∈ blockNodes slots ++ ns :=
    fun n hn => hsub.subset (hperm.mem_iff.1 hn)
  have hapart : (blockNodes (Template.contentArgs slots ns)).Pairwise Apart :=
    (hperm.pairwise_iff Apart.symm).2 (h.apart.sublist hsub)
  have hsorted := order_mergeSort (fun n hn => (h.each n (hmem n hn)).order) hapart
  have hreads : places (nodeReads [] (.invocation p name (args ++ Template.contentArgs slots ns))) =
      places (attrReads [] args) ++ ((blockNodes (Template.contentArgs slots ns)).mergeSort
        fun a b => !b.pos.before a.pos).flatMap fun n => places (nodeReads [] n) := by
    rw [nodeReads, places_append, attrReads_append, attrReads_of_isContent hcontent,
      List.append_nil, inSourceOrder_blockReads, hnodes, places_flatMap]
  have hsorted' : ∀ q ∈ ((blockNodes (Template.contentArgs slots ns)).mergeSort
      fun a b => !b.pos.before a.pos).flatMap (fun n => places (nodeReads [] n)),
      ∃ n ∈ blockNodes slots ++ ns, q ∈ spots n := by
    intro q hq
    obtain ⟨n, hn, hq⟩ := List.mem_flatMap.1 hq
    exact ⟨n, hmem n (List.mem_mergeSort.1 hn), (mem_spots hq).1⟩
  have hascending : Ascending source (a + 1) hi
      (places (nodeReads [] (.invocation p name (args ++ Template.contentArgs slots ns)))) := by
    rw [hreads]
    refine ⟨List.pairwise_append.2 ⟨h.attrs.order, hsorted, fun q hq r hr => ?_⟩,
      List.forall_mem_append.2 ⟨h.attrs.between, fun q hq => ?_⟩⟩
    · obtain ⟨n, hn, hr⟩ := hsorted' r hr
      exact h.behind q hq n hn r hr
    · obtain ⟨n, hn, hq⟩ := hsorted' q hq
      exact (h.each n hn).between q hq
  exact nodePlaced_of_ascending rfl (hp.mono (Nat.le_refl a) ha)
    (hascending.mono (Nat.le_succ a) (Nat.le_refl hi))

end TagLoom.Inference

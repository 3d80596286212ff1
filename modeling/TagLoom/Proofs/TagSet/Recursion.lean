import Mathlib.Data.List.Flatten
import TagLoom.Proofs.TagSet.Components
import TagLoom.Proofs.TagSet.Declared

/-!
# Recursion that never ends

An invocation that stands in the body of a tag itself, not in a condition, a loop or the content of
another invocation, is rendered whenever the tag is.  Tags that lie on a cycle of such invocations
are reported, with one warning for all that reach each other.  Its chain lists them in the order of
their names, which need not be that of a cycle.
-/

namespace TagLoom.TagSet

open Relation (ReflTransGen TransGen)

/-- Whenever one tag is rendered, the other one is. -/
def Certain (defs : List Definition) (v w : Bytes) : Prop :=
  ∃ d ∈ defs, d.name = v ∧ (∃ p args, Node.invocation p w args ∈ d.body) ∧
    Name.isBuiltin w = false ∧ w ∈ defs.map (·.name)

/-- The warning on tags that invoke each other, at the first of them. -/
def recursion (d : Definition) (knot : List Bytes) : Diagnostic :=
  .warning .resolution d.file d.pos.line d.pos.column
    ("tag " ++ Bytes.quote d.name ++ " recurses without a conditional base case (" ++
      Bytes.join " -> " (knot ++ [d.name]) ++ "); rendering it will not terminate")

variable {defs : List Definition} {v w : Bytes}

/-! ## Invocations that are not guarded -/

mutual

theorem guarded_of_walkNode (n : Node) : ∀ m ∈ Node.walkNode true n, m.2 = true := by
  cases n with
  | literal pos s => simp [Node.walkNode]
  | interpolation pos e esc => simp [Node.walkNode]
  | invocation pos name args => exact List.forall_mem_cons.2 ⟨rfl, guarded_of_walkArgs args⟩
  | cond pos e body other =>
      cases other with
      | none => exact List.forall_mem_cons.2 ⟨rfl, guarded_of_walkNodes body⟩
      | some other =>
          refine List.forall_mem_cons.2 ⟨rfl, List.forall_mem_append.2 ⟨?_, ?_⟩⟩
          · exact guarded_of_walkNodes body
          · exact guarded_of_walkNodes other
  | loop pos e item index body => exact List.forall_mem_cons.2 ⟨rfl, guarded_of_walkNodes body⟩

theorem guarded_of_walkNodes (ns : List Node) : ∀ m ∈ Node.walkNodes true ns, m.2 = true := by
  cases ns with
  | nil => exact fun _ hm => (nomatch hm)
  | cons n ns =>
      exact List.forall_mem_append.2 ⟨guarded_of_walkNode n, guarded_of_walkNodes ns⟩

theorem guarded_of_walkArgs (as : List Arg) : ∀ m ∈ Node.walkArgs true as, m.2 = true := by
  cases as with
  | nil => exact fun _ hm => (nomatch hm)
  | cons a as =>
      refine List.forall_mem_append.2 ⟨?_, guarded_of_walkArgs as⟩
      cases a with
      | text pos name parts =>
          intro m hm
          obtain ⟨p, -, rfl⟩ := List.mem_map.1 hm
          rfl
      | expr pos name e => exact fun _ hm => (nomatch hm)
      | content pos name body => exact guarded_of_walkNodes body

end

theorem not_mem_walkArgs {p : Pos} {name : Bytes} {args : List Arg} (as : List Arg) :
    (Node.invocation p name args, false) ∉ Node.walkArgs false as := by
  induction as with
  | nil => exact List.not_mem_nil
  | cons a as ih =>
      refine fun hm => (List.mem_append.1 hm).elim ?_ ih
      cases a with
      | text pos name parts =>
          intro hm
          obtain ⟨part, -, heq⟩ := List.mem_map.1 hm
          cases part <;> cases heq
      | expr pos name e => exact fun hm => (nomatch hm)
      | content pos name body => exact fun hm => nomatch guarded_of_walkNodes body _ hm

theorem not_mem_walkNodes (m : Node) (ns : List Node) : (m, false) ∉ Node.walkNodes true ns :=
  fun hm => Bool.false_ne_true (guarded_of_walkNodes ns _ hm)

theorem mem_walkNodes_iff {p : Pos} {name : Bytes} {args : List Arg} (ns : List Node) :
    (Node.invocation p name args, false) ∈ Node.walkNodes false ns ↔
      Node.invocation p name args ∈ ns := by
  induction ns with
  | nil => simp [Node.walkNodes]
  | cons n ns ih =>
      have hnode : (Node.invocation p name args, false) ∈ Node.walkNode false n ↔
          Node.invocation p name args = n := by
        cases n with
        | literal pos s => simp [Node.walkNode]
        | interpolation pos e esc => simp [Node.walkNode]
        | invocation pos callee as => simp [Node.walkNode, not_mem_walkArgs]
        | cond pos e body other =>
            cases other with
            | none => simp [Node.walkNode, not_mem_walkNodes]
            | some other => simp [Node.walkNode, not_mem_walkNodes]
        | loop pos e item index body => simp [Node.walkNode, not_mem_walkNodes]
      rw [Node.walkNodes, List.mem_append, hnode, ih, List.mem_cons]

theorem mem_certainCallees {names : List Bytes} {d : Definition} :
    w ∈ certainCallees names d ↔ (∃ p args, Node.invocation p w args ∈ d.body) ∧
      Name.isBuiltin w = false ∧ w ∈ names := by
  rw [certainCallees, Bytes.mem_dedup, List.mem_filterMap]
  constructor
  · rintro ⟨⟨p, callee, guarded⟩, hinvoked, hsome⟩
    dsimp only at hsome
    split at hsome
    · rename_i hknown
      obtain rfl := Option.some.inj hsome
      simp only [Bool.and_eq_true, Bool.not_eq_true', List.contains_iff_mem] at hknown
      obtain ⟨⟨rfl, hbuiltin⟩, hname⟩ := hknown
      obtain ⟨⟨n, g⟩, hwalk, hnode⟩ := List.mem_filterMap.1 hinvoked
      cases n with
      | invocation q name args =>
          cases hnode
          exact ⟨⟨p, args, (mem_walkNodes_iff d.body).1 hwalk⟩, hbuiltin, hname⟩
      | literal | interpolation | cond | loop => cases hnode
    · cases hsome
  · rintro ⟨⟨p, args, hbody⟩, hbuiltin, hname⟩
    have hwalk : (Node.invocation p w args, false) ∈ Node.walk d.body :=
      (mem_walkNodes_iff d.body).2 hbody
    refine ⟨(p, w, false), List.mem_filterMap.2 ⟨_, hwalk, rfl⟩, ?_⟩
    simp [hbuiltin, hname]

/-! ## The graph of the warnings -/

def certainGraph (defs : List Definition) : Graph :=
  defs.map fun d => (d.name, certainCallees (defs.map (·.name)) d)

theorem mem_successors_iff (hnames : (defs.map (·.name)).Nodup) :
    w ∈ (certainGraph defs).successors v ↔ Certain defs v w := by
  have hkey : ((fun entry : Bytes × List Bytes => entry.1 == v) ∘
      fun d : Definition => (d.name, certainCallees (defs.map (·.name)) d)) =
        fun d => d.name == v := rfl
  rw [Graph.successors, certainGraph, List.find?_map, hkey]
  cases hfind : defs.find? (·.name == v) with
  | some d =>
      have hd := List.mem_of_find?_eq_some hfind
      have hname : d.name = v := by simpa using List.find?_some hfind
      rw [Option.map_some, Option.map_some, Option.getD_some, mem_certainCallees]
      constructor
      · exact fun h => ⟨d, hd, hname, h⟩
      · rintro ⟨e, he, hv, h⟩
        obtain rfl := List.inj_on_of_nodup_map hnames he hd (hv.trans hname.symm)
        exact h
  | none =>
      simp only [Option.map_none, Option.getD_none, List.not_mem_nil, false_iff]
      rintro ⟨d, hd, hname, -⟩
      exact List.find?_eq_none.1 hfind d hd (beq_iff_eq.2 hname)

/-- Whether the tags of a component invoke each other: one tag alone may not invoke itself. -/
def isKnot (g : Graph) : List Bytes → Bool
  | [] => false
  | v :: others => !(others.isEmpty && !(g.successors v).contains v)

theorem forall₂_filterMap {α β : Type} {R : α → β → Prop} {f : α → Option β} {p : α → Bool}
    {xs : List α} (h : ∀ x ∈ xs, if p x then ∃ y, f x = some y ∧ R x y else f x = none) :
    List.Forall₂ R (xs.filter p) (xs.filterMap f) := by
  induction xs with
  | nil => exact .nil
  | cons x xs ih =>
      obtain ⟨hx, hxs⟩ := List.forall_mem_cons.1 h
      rw [List.filter_cons, List.filterMap_cons]
      split at hx
      · rename_i hp
        obtain ⟨y, hy, hr⟩ := hx
        rw [hy, if_pos hp]
        exact .cons hr (ih hxs)
      · rename_i hp
        rw [hx, if_neg hp]
        exact ih hxs

section Named

variable (hnames : (defs.map (·.name)).Nodup)

include hnames

theorem certainGraph_closed : ∀ v ∈ defs.map (·.name), ∀ w ∈ (certainGraph defs).successors v,
    w ∈ defs.map (·.name) := by
  intro v _ w hw
  obtain ⟨d, -, -, -, -, hname⟩ := (mem_successors_iff hnames).1 hw
  exact hname

theorem reaches_certainGraph :
    (certainGraph defs).Reaches = ReflTransGen (Certain defs) := by
  have hedge : (fun v w => w ∈ (certainGraph defs).successors v) = Certain defs := by
    funext v w
    exact propext (mem_successors_iff hnames)
  rw [Graph.Reaches, hedge]

theorem recursionWarnings_forall₂ :
    List.Forall₂ (fun knot r => ∃ d ∈ defs, knot.head? = some d.name ∧ r = recursion d knot)
      ((components (defs.map (·.name)) (certainGraph defs)).filter (isKnot (certainGraph defs)))
      (recursionWarnings defs) := by
  refine forall₂_filterMap fun c hc => ?_
  obtain ⟨-, hsublist, -⟩ := (components_spec hnames (certainGraph_closed hnames)).2 c hc
  cases c with
  | nil => rfl
  | cons v others =>
      have hv : v ∈ defs.map (·.name) := hsublist.subset List.mem_cons_self
      obtain ⟨d, hd, rfl⟩ := List.mem_map.1 hv
      have hfind : defs.find? (·.name == d.name) = some d := Bytes.find?_of_nodup hnames hd
      by_cases hknot : isKnot (certainGraph defs) (d.name :: others) = true
      · rw [if_pos hknot]
        rw [isKnot, Bool.not_eq_true'] at hknot
        refine ⟨recursion d (d.name :: others), ?_, d, hd, rfl, rfl⟩
        exact (if_neg (Bool.not_eq_true _ ▸ hknot)).trans (by rw [hfind]; rfl)
      · rw [if_neg hknot]
        rw [isKnot, Bool.not_eq_true', Bool.not_eq_false] at hknot
        exact if_pos hknot

theorem isKnot_iff {c : List Bytes} (hc : c ∈ components (defs.map (·.name)) (certainGraph defs))
    (hv : v ∈ c) : isKnot (certainGraph defs) c = true ↔ TransGen (Certain defs) v v := by
  obtain ⟨-, hsublist, hclass⟩ := (components_spec hnames (certainGraph_closed hnames)).2 c hc
  rw [reaches_certainGraph hnames] at hclass
  have hnodup : c.Nodup := hsublist.nodup hnames
  have hother (w : Bytes) (hw : w ∈ c) (hne : w ≠ v) : TransGen (Certain defs) v v := by
    obtain ⟨hto, hback⟩ := (hclass v hv w).1 hw
    have hto := (Relation.reflTransGen_iff_eq_or_transGen.1 hto).resolve_left hne
    exact hto.trans_left hback
  cases c with
  | nil => cases hv
  | cons u others =>
      cases others with
      | nil =>
          obtain rfl : v = u := List.mem_singleton.1 hv
          have hloop : isKnot (certainGraph defs) [v] = true ↔ Certain defs v v := by
            rw [← mem_successors_iff hnames]
            simp [isKnot]
          rw [hloop]
          constructor
          · exact .single
          · intro hcycle
            obtain ⟨w, hedge, hback⟩ := TransGen.head'_iff.1 hcycle
            obtain rfl : w = v := List.mem_singleton.1 ((hclass v hv w).2 ⟨.single hedge, hback⟩)
            exact hedge
      | cons w others =>
          have hne : u ≠ w := fun heq => (List.nodup_cons.1 hnodup).1 (heq ▸ List.mem_cons_self)
          refine ⟨fun _ => ?_, fun _ => rfl⟩
          by_cases hu : u = v
          · exact hother w (by simp) (hu ▸ hne.symm)
          · exact hother u List.mem_cons_self hu

end Named

/-! ## The warnings on a tag set -/

theorem unresolved_isError (names : List Bytes) (d : Definition) :
    ∀ r ∈ unresolved names d, r.isError = true := by
  intro r hr
  obtain ⟨⟨p, name, g⟩, -, hreport⟩ := List.mem_filterMap.1 hr
  dsimp only at hreport
  split at hreport
  · split at hreport
    · cases hreport
    · exact Option.some.inj hreport ▸ rfl
  · split at hreport
    · cases hreport
    · exact Option.some.inj hreport ▸ rfl

theorem recursionWarnings_isWarning (defs : List Definition) :
    ∀ r ∈ recursionWarnings defs, r.severity = .warning := by
  intro r hr
  obtain ⟨component, -, hreport⟩ := List.mem_filterMap.1 hr
  cases component with
  | nil => cases hreport
  | cons v others =>
      dsimp only at hreport
      split at hreport
      · cases hreport
      · obtain ⟨d, -, rfl⟩ := Option.map_eq_some_iff.1 hreport
        rfl

theorem nodup_names_build (templates : List Template) : (build templates).1.names.Nodup := by
  have hgathers := gathers (declarations templates)
  have hperm : (build templates).1.defs.Perm
      ((declarations templates).foldl collect ⟨[], [], []⟩).defs := List.mergeSort_perm ..
  exact (hperm.map _).nodup_iff.2 hgathers.names

theorem warnings_build (templates : List Template) :
    Diagnostic.warnings (build templates).2 = recursionWarnings (build templates).1.defs := by
  let sorted := templates.mergeSort fun a b => Bytes.le a.path b.path
  let all := sorted.flatMap (·.defs)
  let collected := all.foldl collect ⟨[], [], []⟩
  let defs := collected.defs.mergeSort fun a b => Bytes.le a.name b.name
  have hreported : (build templates).2 = collected.reports ++
      all.flatMap (unresolved (defs.map (·.name))) ++ recursionWarnings defs := rfl
  have hdefs : (build templates).1.defs = defs := rfl
  have herrors (rs : List Diagnostic) (hrs : ∀ r ∈ rs, r.isError = true) :
      Diagnostic.warnings rs = [] := by
    refine List.filter_eq_nil_iff.2 fun r hr => ?_
    have hr := hrs r hr
    rw [Diagnostic.isError, beq_iff_eq] at hr
    simp [hr]
  have hunresolved : ∀ r ∈ all.flatMap (unresolved (defs.map (·.name))), r.isError = true := by
    intro r hr
    obtain ⟨d, -, hr⟩ := List.mem_flatMap.1 hr
    exact unresolved_isError _ d r hr
  have hwarnings : Diagnostic.warnings (recursionWarnings defs) = recursionWarnings defs :=
    List.filter_eq_self.2 fun r hr => beq_iff_eq.2 (recursionWarnings_isWarning defs r hr)
  rw [hreported, hdefs, Diagnostic.warnings, List.filter_append, List.filter_append,
    ← Diagnostic.warnings, ← Diagnostic.warnings, ← Diagnostic.warnings,
    herrors _ (collect_all_isError all), herrors _ hunresolved, hwarnings]
  rfl

/-- Sets of tags that invoke each other without end, each with the warning on it. -/
structure Knots (set : TagSet) (warnings : List Diagnostic) (knots : List (List Bytes)) : Prop where
  warned : List.Forall₂
    (fun knot r => ∃ d ∈ set.defs, knot.head? = some d.name ∧ r = recursion d knot) knots warnings
  nodup : knots.flatten.Nodup
  ordered : ∀ knot ∈ knots, knot.Sublist set.names
  mutual_ : ∀ knot ∈ knots, ∀ v ∈ knot, ∀ w, w ∈ knot ↔
    ReflTransGen (Certain set.defs) v w ∧ ReflTransGen (Certain set.defs) w v
  single : ∀ v, [v] ∈ knots → Certain set.defs v v
  cycle : ∀ v, (∃ knot ∈ knots, v ∈ knot) ↔ TransGen (Certain set.defs) v v

theorem exists_knots (set : TagSet) (hnames : set.names.Nodup) :
    ∃ knots, Knots set (recursionWarnings set.defs) knots := by
  change (set.defs.map (·.name)).Nodup at hnames
  let found := components (set.defs.map (·.name)) (certainGraph set.defs)
  obtain ⟨hperm, hclasses⟩ := components_spec hnames (certainGraph_closed hnames)
  rw [reaches_certainGraph hnames] at hclasses
  have hmem {knot : List Bytes} : knot ∈ found.filter (isKnot (certainGraph set.defs)) ↔
      knot ∈ found ∧ isKnot (certainGraph set.defs) knot = true := List.mem_filter
  refine ⟨found.filter (isKnot (certainGraph set.defs)), ?_⟩
  constructor
  case warned => exact recursionWarnings_forall₂ hnames
  case nodup =>
    have hsublist : (found.filter (isKnot (certainGraph set.defs))).flatten.Sublist found.flatten :=
      List.filter_sublist.flatten
    exact hsublist.nodup (hperm.nodup_iff.2 hnames)
  case ordered => exact fun knot hknot => (hclasses knot (hmem.1 hknot).1).2.1
  case mutual_ => exact fun knot hknot => (hclasses knot (hmem.1 hknot).1).2.2
  case single =>
    intro v hknot
    have hloop := (hmem.1 hknot).2
    rw [← mem_successors_iff hnames]
    simpa [isKnot] using hloop
  case cycle =>
    intro v
    constructor
    · rintro ⟨knot, hknot, hv⟩
      obtain ⟨hfound, hisKnot⟩ := hmem.1 hknot
      exact (isKnot_iff hnames hfound hv).1 hisKnot
    · intro hcycle
      obtain ⟨w, ⟨d, hd, rfl, -⟩, -⟩ := TransGen.head'_iff.1 hcycle
      have hv : d.name ∈ found.flatten := hperm.mem_iff.2 (List.mem_map_of_mem hd)
      obtain ⟨knot, hknot, hv⟩ := List.mem_flatten.1 hv
      exact ⟨knot, hmem.2 ⟨hknot, (isKnot_iff hnames hknot hv).2 hcycle⟩, hv⟩

/-- The search finds the strongly connected components of any graph over distinct names, and the
warnings on a tag set are those on its tags that invoke each other without end. -/
theorem components_and_knots :
    (∀ (names : List Bytes) (g : Graph), names.Nodup →
      (∀ v ∈ names, ∀ w ∈ g.successors v, w ∈ names) →
      (components names g).flatten.Perm names ∧
        ∀ c ∈ components names g, c ≠ [] ∧ c.Sublist names ∧
          ∀ v ∈ c, ∀ w, w ∈ c ↔ ReflTransGen (fun v w => w ∈ g.successors v) v w ∧
            ReflTransGen (fun v w => w ∈ g.successors v) w v) ∧
    (∀ set : TagSet, set.names.Nodup → ∃ knots, Knots set (recursionWarnings set.defs) knots) ∧
    ∀ templates, (build templates).1.names.Nodup ∧
      Diagnostic.warnings (build templates).2 = recursionWarnings (build templates).1.defs :=
  ⟨fun _ _ => components_spec, exists_knots,
    fun templates => ⟨nodup_names_build templates, warnings_build templates⟩⟩

/-- Two tags that invoke each other, and one that invokes itself only under a condition. -/
def volley : Template :=
  ⟨"a", "a.html", [
    ⟨"Ping", false, .start, [], [.invocation .start "Pong" []], "a.html", "a"⟩,
    ⟨"Pong", false, .start, [], [.invocation .start "Ping" []], "a.html", "a"⟩,
    ⟨"Serve", false, .start, [],
      [.cond .start ⟨"won", .name 0 "won"⟩ [.invocation .start "Serve" []] none], "a.html", "a"⟩]⟩

theorem components_and_knots_volley :
    (components ["Ping", "Pong", "Serve"] [("Ping", ["Pong"]), ("Pong", ["Ping"])]).flatten.Perm
      ["Ping", "Pong", "Serve"] ∧
    ∃ knots, Knots (build [volley]).1 (Diagnostic.warnings (build [volley]).2) knots ∧
      ∃ knot ∈ knots, ("Ping" : Bytes) ∈ knot ∧ ("Pong" : Bytes) ∈ knot := by
  have hcomponents := components_and_knots.1 ["Ping", "Pong", "Serve"]
    [("Ping", ["Pong"]), ("Pong", ["Ping"])] (by decide) (by decide)
  obtain ⟨hnames, hwarnings⟩ := components_and_knots.2.2 [volley]
  obtain ⟨knots, hknots⟩ := components_and_knots.2.1 (build [volley]).1 hnames
  have hdefs : (build [volley]).1.defs = volley.defs := by cbv
  have hthere : Certain (build [volley]).1.defs "Ping" "Pong" := by
    rw [hdefs]
    exact ⟨_, List.mem_cons_self, rfl, ⟨_, _, List.mem_cons_self⟩, by decide, by decide⟩
  have hback : Certain (build [volley]).1.defs "Pong" "Ping" := by
    rw [hdefs]
    exact ⟨_, List.mem_cons_of_mem _ List.mem_cons_self, rfl, ⟨_, _, List.mem_cons_self⟩, by decide,
      by decide⟩
  obtain ⟨knot, hknot, hping⟩ := (hknots.cycle "Ping").2 (.head hthere (.single hback))
  have hpong := (hknots.mutual_ knot hknot "Ping" hping "Pong").2 ⟨.single hthere, .single hback⟩
  exact ⟨hcomponents.1, knots, hwarnings ▸ hknots, knot, hknot, hping, hpong⟩

/-! ## The chain of a warning -/

/-- What the warning on a knot lists: its tags in order, and the first of them again. -/
def tour (knot : List Bytes) : List Bytes := knot ++ knot.head?.toList

/-- Whenever one tag of a knot is rendered, the other one of it is. -/
def Within (defs : List Definition) (knot : List Bytes) (v w : Bytes) : Prop :=
  v ∈ knot ∧ w ∈ knot ∧ Certain defs v w

variable {knot : List Bytes}

theorem tour_eq_append (h : knot.head? = some v) : tour knot = knot ++ [v] := by
  rw [tour, h, Option.toList_some]

theorem mem_of_mem_tour (h : v ∈ tour knot) : v ∈ knot := by
  rcases List.mem_append.1 h with h | h
  · exact h
  · exact List.mem_of_mem_head? (Option.mem_toList.1 h)

/-! ## Walks in a knot -/

theorem within_of_mem {set : TagSet} {warnings : List Diagnostic} {knots : List (List Bytes)}
    (h : Knots set warnings knots) (hknot : knot ∈ knots) (hv : v ∈ knot) (hw : w ∈ knot) :
    TransGen (Within set.defs knot) v w := by
  have hclass := h.mutual_ knot hknot v hv
  have hinside {u : Bytes} (hto : ReflTransGen (Certain set.defs) v u)
      (hback : ReflTransGen (Certain set.defs) u v) : u ∈ knot := (hclass u).2 ⟨hto, hback⟩
  have hwalk : TransGen (Certain set.defs) v w := by
    have hcycle := (h.cycle v).1 ⟨knot, hknot, hv⟩
    exact hcycle.trans_left ((hclass w).1 hw).1
  have hback := ((hclass w).1 hw).2
  -- every tag on the way is reached from the first and reaches the last, so it is in the knot
  induction hwalk with
  | single hedge => exact .single ⟨hv, hw, hedge⟩
  | tail hfront hedge ih =>
      have hu := hinside hfront.to_reflTransGen (.head hedge hback)
      exact (ih hu (.head hedge hback)).tail ⟨hu, hw, hedge⟩

theorem certain_of_pair (hknot : ∀ u ∈ knot, u = v ∨ u = w) (h : TransGen (Within defs knot) v w) :
    Certain defs v w := by
  have hfrom : ∀ u, TransGen (Within defs knot) u w → u = v → Certain defs v w := by
    intro u hu
    induction hu using TransGen.head_induction_on with
    | single hedge =>
        rintro rfl
        exact hedge.2.2
    | head hedge _ ih =>
        rintro rfl
        obtain hback | rfl := hknot _ hedge.2.1
        · exact ih hback
        · exact hedge.2.2
  exact hfrom v h rfl

/-- What the warning on a knot tells: its chain are the tags of the knot in the order of their names
and the first again, and each reaches the next by invocations in the knot.  In a knot of one or two
tags each invokes the next. -/
structure Told (set : TagSet) (knot : List Bytes) : Prop where
  ordered : knot.Pairwise fun v w => Bytes.lt v w = true
  mutual_ : ∀ v ∈ knot, ∀ w, w ∈ knot ↔
    TransGen (Certain set.defs) v w ∧ TransGen (Certain set.defs) w v
  walks : (tour knot).IsChain (TransGen (Within set.defs knot))
  pair : knot.length ≤ 2 → (tour knot).IsChain (Certain set.defs)

theorem pairwise_lt_names_build (templates : List Template) :
    (build templates).1.names.Pairwise fun v w => Bytes.lt v w = true := by
  let collected := (declarations templates).foldl collect ⟨[], [], []⟩
  have hnames : (collected.defs.map (·.name)).Nodup := (gathers (declarations templates)).names
  exact Bytes.pairwise_lt_mergeSort Definition.name hnames

theorem Knots.told {set : TagSet} {warnings : List Diagnostic} {knots : List (List Bytes)}
    (h : Knots set warnings knots)
    (hnames : set.names.Pairwise fun v w => Bytes.lt v w = true) (hknot : knot ∈ knots) :
    Told set knot := by
  have hordered := hnames.sublist (h.ordered knot hknot)
  have hwalks : (tour knot).IsChain (TransGen (Within set.defs knot)) :=
    (List.pairwise_of_forall_mem_list fun _ hv _ hw =>
      within_of_mem h hknot (mem_of_mem_tour hv) (mem_of_mem_tour hw)).isChain
  have hedges : Within set.defs knot ≤ Certain set.defs := fun _ _ hedge => hedge.2.2
  have hcertain {v w : Bytes} (hwalk : TransGen (Within set.defs knot) v w) :
      TransGen (Certain set.defs) v w := TransGen.mono hedges _ _ hwalk
  refine ⟨hordered, fun v hv w => ⟨fun hw => ?_, fun hwalks => ?_⟩, hwalks, fun hlength => ?_⟩
  · exact ⟨hcertain (within_of_mem h hknot hv hw), hcertain (within_of_mem h hknot hw hv)⟩
  · exact (h.mutual_ knot hknot v hv w).2 ⟨hwalks.1.to_reflTransGen, hwalks.2.to_reflTransGen⟩
  · match knot, hlength with
    | [], _ => exact .nil
    | [v], _ => simpa [tour] using h.single v hknot
    | [v, w], _ =>
        have hthere := within_of_mem h hknot (v := v) (w := w) (by simp) (by simp)
        have hback := within_of_mem h hknot (v := w) (w := v) (by simp) (by simp)
        have hcertain := And.intro (certain_of_pair (by simp) hthere)
          (certain_of_pair (by simp [or_comm]) hback)
        simpa [tour] using hcertain

/-- Every warning on the tags of some templates is on tags that invoke each other without end.  It
prints their chain in the order of their names, in which each reaches the next. -/
theorem warnings_told (templates : List Template) :
    ∀ r ∈ Diagnostic.warnings (build templates).2, ∃ d ∈ (build templates).1.defs, ∃ knot,
      knot.head? = some d.name ∧
      r = .warning .resolution d.file d.pos.line d.pos.column
        ("tag " ++ Bytes.quote d.name ++ " recurses without a conditional base case (" ++
          Bytes.join " -> " (tour knot) ++ "); rendering it will not terminate") ∧
      Told (build templates).1 knot := by
  obtain ⟨knots, hknots⟩ := exists_knots (build templates).1 (nodup_names_build templates)
  rw [warnings_build]
  intro r hr
  obtain ⟨i, rfl⟩ := List.mem_iff_get.1 hr
  have hi : i < knots.length := by
    rw [hknots.warned.length_eq]
    exact i.2
  obtain ⟨d, hd, hhead, hreport⟩ := hknots.warned.get hi i.2
  have htold := hknots.told (pairwise_lt_names_build templates) (List.get_mem knots ⟨i, hi⟩)
  refine ⟨d, hd, knots.get ⟨i, hi⟩, hhead, ?_, htold⟩
  rw [hreport, tour_eq_append hhead]
  rfl

theorem warnings_told_volley : ∃ r ∈ Diagnostic.warnings (build [volley]).2,
    ∃ d ∈ (build [volley]).1.defs, ∃ knot, knot.head? = some d.name ∧
      r = .warning .resolution d.file d.pos.line d.pos.column
        ("tag " ++ Bytes.quote d.name ++ " recurses without a conditional base case (" ++
          Bytes.join " -> " (tour knot) ++ "); rendering it will not terminate") ∧
      Told (build [volley]).1 knot := by
  have hwarning : Diagnostic.warnings (build [volley]).2 =
      [recursion ⟨"Ping", false, .start, [], [.invocation .start "Pong" []], "a.html", "a"⟩
        ["Ping", "Pong"]] := by cbv
  have hmem : recursion ⟨"Ping", false, .start, [], [.invocation .start "Pong" []], "a.html", "a"⟩
      ["Ping", "Pong"] ∈ Diagnostic.warnings (build [volley]).2 := by simp [hwarning]
  exact ⟨_, hmem, warnings_told [volley] _ hmem⟩

/-- Three tags that invoke each other against the order of their names. -/
def relay : Template :=
  ⟨"a", "a.html", [
    ⟨"A", false, .start, [], [.invocation .start "C" []], "a.html", "a"⟩,
    ⟨"B", false, .start, [], [.invocation .start "A" []], "a.html", "a"⟩,
    ⟨"C", false, .start, [], [.invocation .start "B" []], "a.html", "a"⟩]⟩

/-- The chain `A -> B -> C -> A` is printed, but the first tag does not invoke the second. -/
theorem tour_relay_not_isChain :
    (¬∀ (templates : List Template) (d : Definition) (knot : List Bytes),
      recursion d knot ∈ Diagnostic.warnings (build templates).2 →
        (tour knot).IsChain (Certain (build templates).1.defs)) ∧
    (Diagnostic.warnings (build [relay]).2).map (·.message) =
      ["tag \"A\" recurses without a conditional base case (A -> B -> C -> A); " ++
        "rendering it will not terminate"] := by
  refine ⟨fun hreal => ?_, by cbv⟩
  let first : Definition := ⟨"A", false, .start, [], [.invocation .start "C" []], "a.html", "a"⟩
  have hdefs : (build [relay]).1.defs = relay.defs := by cbv
  have hwarning : Diagnostic.warnings (build [relay]).2 = [recursion first ["A", "B", "C"]] := by
    unfold first
    cbv
  have hchain := hreal [relay] first ["A", "B", "C"] (by simp [hwarning])
  obtain ⟨d, hd, hname, ⟨p, args, hbody⟩, -⟩ := (List.isChain_cons_cons.1 hchain).1
  rw [hdefs] at hd
  simp only [relay, List.mem_cons, List.not_mem_nil, or_false] at hd
  obtain rfl | rfl | rfl := hd
  · rw [List.mem_singleton] at hbody
    injection hbody with _ hcallee
    exact absurd hcallee (by decide)
  · exact absurd hname (by decide)
  · exact absurd hname (by decide)

end TagLoom.TagSet

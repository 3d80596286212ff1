import TagLoom.Proofs.Compilation.Passes
import TagLoom.Proofs.Expr.Words
import TagLoom.Proofs.Inference.Position
import TagLoom.Proofs.TagSet.Build

/-!
# Declarations and reports

What the tag set of any templates holds and what is reported on them: which declarations are kept,
which ones are reported as repeated, when nothing is an error, and which tags a tag calls.
-/

namespace TagLoom

namespace Bytes

theorem nodup_dedup (texts : List Bytes) : (dedup texts).Nodup := by
  have hfold (seen : List Bytes) (hseen : seen.Nodup) :
      (texts.foldl (fun seen t => if seen.contains t then seen else seen ++ [t]) seen).Nodup := by
    induction texts generalizing seen with
    | nil => exact hseen
    | cons t texts ih =>
        rw [List.foldl_cons]
        split
        · exact ih _ hseen
        · next ht =>
          refine ih _ (List.nodup_append.2 ⟨hseen, List.nodup_singleton t, ?_⟩)
          intro u hu v hv
          rw [List.mem_singleton.1 hv]
          rintro rfl
          exact ht (List.contains_iff_mem.2 hu)
  exact hfold [] List.nodup_nil

theorem find?_of_nodup {α : Type} {key : α → Bytes} {xs : List α} (h : (xs.map key).Nodup) {x : α}
    (hx : x ∈ xs) : xs.find? (key · == key x) = some x := by
  induction xs with
  | nil => cases hx
  | cons y xs ih =>
      rw [List.map_cons, List.nodup_cons] at h
      rcases List.mem_cons.1 hx with rfl | hx
      · simp
      · have hne : (key y == key x) = false :=
          beq_eq_false_iff_ne.2 fun heq => h.1 (heq ▸ List.mem_map_of_mem hx)
        rw [List.find?_cons, hne]
        exact ih h.2 hx

theorem find?_perm {α : Type} {key : α → Bytes} {xs ys : List α} (hperm : xs.Perm ys)
    (h : (xs.map key).Nodup) (k : Bytes) : xs.find? (key · == k) = ys.find? (key · == k) := by
  cases hys : ys.find? (key · == k) with
  | none =>
      rw [List.find?_eq_none] at hys ⊢
      exact fun x hx => hys x (hperm.mem_iff.1 hx)
  | some y =>
      obtain rfl : key y = k := by simpa using List.find?_some hys
      exact find?_of_nodup h (hperm.mem_iff.2 (List.mem_of_find?_eq_some hys))

theorem not_startsWith {s t : Bytes} {c : UInt8} (hs : s.head? = some c) (ht : t ≠ [])
    (hne : t.head? ≠ some c) : startsWith s t = false := by
  cases s with
  | nil => cases hs
  | cons a s =>
      cases t with
      | nil => exact absurd rfl ht
      | cons b t =>
          obtain rfl := Option.some.inj hs
          have hba : (b == a) = false := beq_eq_false_iff_ne.2 fun h => hne (by rw [h]; rfl)
          rw [startsWith, List.isPrefixOf, hba, Bool.false_and]

end Bytes

namespace TagSet

open Diagnostic (hasErrors)
open Node (Inside)

/-! ## Repeated declarations -/

/-- All tags of some templates, the templates in the order of their paths. -/
def declarations (templates : List Template) : List Definition :=
  (templates.mergeSort fun a b => Bytes.le a.path b.path).flatMap (·.defs)

/-- The declarations of a name that was declared before, each with the first one. -/
def redeclared (ds : List Definition) : List (Definition × Definition) :=
  ds.zipIdx.filterMap fun (d, i) => ((ds.take i).find? (·.name == d.name)).map (·, d)

/-- The report on a declaration of a name that was declared before. -/
def duplicate (first d : Definition) : Diagnostic :=
  report d ("duplicate tag " ++ Bytes.quote d.name ++
    " (first declared at " ++ first.file ++ ":" ++ first.pos.toBytes ++ ")")

def isDuplicate (r : Diagnostic) : Bool := Bytes.startsWith r.message "duplicate tag "

theorem redeclared_concat (ds : List Definition) (d : Definition) :
    redeclared (ds ++ [d]) =
      redeclared ds ++ ((ds.find? (·.name == d.name)).map (·, d)).toList := by
  have h := filterMap_earlier_concat
    (fun (earlier : List Definition) e => (earlier.find? (·.name == e.name)).map (·, e)) ds d
  exact h

theorem isDuplicate_duplicate (first d : Definition) : isDuplicate (duplicate first d) = true := by
  simp [isDuplicate, duplicate, report, Diagnostic.error, Bytes.startsWith, List.append_assoc]

theorem isDuplicate_of_head? {r : Diagnostic} {c : UInt8} (h : r.message.head? = some c)
    (hc : ("duplicate tag " : Bytes).head? ≠ some c) : isDuplicate r = false :=
  Bytes.not_startsWith h (by decide) hc

/-- What has been gathered of some declarations: of each name the first one, and a report on each
of the others. -/
structure Gathers (ds : List Definition) (acc : Collected) : Prop where
  find : ∀ name, acc.defs.find? (·.name == name) = ds.find? (·.name == name)
  names : (acc.defs.map (·.name)).Nodup
  duplicates : acc.reports.filter isDuplicate =
    (redeclared ds).map fun (first, d) => duplicate first d

theorem gathers_nil : Gathers [] ⟨[], [], []⟩ := ⟨fun _ => rfl, List.nodup_nil, rfl⟩

theorem collect_of_new {acc : Collected} {d : Definition}
    (h : acc.defs.find? (·.name == d.name) = none) :
    (collect acc d).defs = acc.defs ++ [d] ∧
      (collect acc d).reports.filter isDuplicate = acc.reports.filter isDuplicate := by
  have htag : ("tag " : Bytes).head? = some 't'.toUInt8 := by decide
  have htags : ("tags " : Bytes).head? = some 't'.toUInt8 := by decide
  have hother {message : Bytes} (hm : message.head? = some 't'.toUInt8) :
      (acc.reports ++ [report d message]).filter isDuplicate = acc.reports.filter isDuplicate := by
    have hquiet : isDuplicate (report d message) = false := isDuplicate_of_head? hm (by decide)
    simp [List.filter_append, hquiet]
  unfold collect
  rw [h]
  dsimp only
  split
  · exact ⟨rfl, hother (by simp [htag])⟩
  · split
    · exact ⟨rfl, hother (by simp [htags])⟩
    · exact ⟨rfl, rfl⟩

theorem Gathers.collect {ds : List Definition} {acc : Collected} (hacc : Gathers ds acc)
    (d : Definition) : Gathers (ds ++ [d]) (collect acc d) := by
  cases hfind : acc.defs.find? (·.name == d.name) with
  | some first =>
      have hcollect : TagSet.collect acc d =
          { acc with reports := acc.reports ++ [duplicate first d] } := by
        unfold TagSet.collect
        rw [hfind]
        rfl
      rw [hcollect]
      refine ⟨fun name => ?_, hacc.names, ?_⟩
      · rw [hacc.find, List.find?_append]
        cases hds : ds.find? (·.name == name) with
        | some e => rfl
        | none =>
            have hne : (d.name == name) = false := by
              by_contra heq
              rw [Bool.not_eq_false, beq_iff_eq] at heq
              rw [hacc.find, heq, hds] at hfind
              cases hfind
            simp [hne]
      · rw [List.filter_append, hacc.duplicates, redeclared_concat, List.map_append,
          ← hacc.find, hfind]
        simp [isDuplicate_duplicate]
  | none =>
      obtain ⟨hdefs, hreports⟩ := collect_of_new hfind
      refine ⟨fun name => ?_, ?_, ?_⟩
      · rw [hdefs, List.find?_append, List.find?_append, hacc.find]
      · rw [hdefs, List.map_append, List.nodup_append]
        refine ⟨hacc.names, List.nodup_singleton _, ?_⟩
        rw [List.find?_eq_none] at hfind
        simpa using fun e he => by simpa using hfind e he
      · rw [hreports, hacc.duplicates, redeclared_concat, ← hacc.find, hfind]
        simp

theorem gathers (ds : List Definition) : Gathers ds (ds.foldl collect ⟨[], [], []⟩) := by
  induction ds using List.reverseRecOn with
  | nil => exact gathers_nil
  | append_singleton ds d ih =>
      rw [List.foldl_concat]
      exact ih.collect d

/-! ## Nothing to report on declarations -/

/-- Nothing is reported on one more tag exactly when its name and its identifier are new and the
identifier is not reserved. -/
theorem Collects.quiet_iff {ds : List Definition} {acc : Collected} (hacc : Collects ds acc)
    (hquiet : acc.reports = []) (d : Definition) :
    (TagSet.collect acc d).reports = [] ↔ (∀ e ∈ ds, e.name ≠ d.name) ∧
      Name.exported d.name ≠ Name.reserved ∧
        ∀ e ∈ ds, Name.exported e.name ≠ Name.exported d.name := by
  have hnames : acc.defs.find? (·.name == d.name) = none ↔ ∀ e ∈ ds, e.name ≠ d.name := by
    simp [hacc.defs, List.find?_eq_none]
  have hidents : acc.idents.find? (·.1 == Name.exported d.name) = none ↔
      ∀ e ∈ ds, Name.exported e.name ≠ Name.exported d.name := by
    simp [hacc.idents, List.find?_eq_none]
  rw [← hnames, ← hidents]
  unfold TagSet.collect
  cases hname : acc.defs.find? (·.name == d.name) with
  | some first => simp
  | none =>
      cases hreserved : Name.exported d.name == Name.reserved with
      | true => simp [beq_iff_eq.1 hreserved]
      | false =>
          cases hident : acc.idents.find? (·.1 == Name.exported d.name) with
          | some other => simp [hreserved, hident]
          | none => simp [hreserved, hident, hquiet, beq_eq_false_iff_ne.1 hreserved]

theorem collect_all_quiet_iff (ds : List Definition) :
    (ds.foldl collect ⟨[], [], []⟩).reports = [] ↔ (ds.map (·.name)).Nodup ∧
      (ds.map fun d => Name.exported d.name).Nodup ∧
        ∀ d ∈ ds, Name.exported d.name ≠ Name.reserved := by
  induction ds using List.reverseRecOn with
  | nil => simp
  | append_singleton ds d ih =>
      have hnodup (f : Definition → Bytes) : ((ds ++ [d]).map f).Nodup ↔
          (ds.map f).Nodup ∧ ∀ e ∈ ds, f e ≠ f d := by
        rw [List.map_append, List.nodup_append]
        simp
      rw [List.foldl_concat, hnodup, hnodup, List.forall_mem_append, List.forall_mem_singleton]
      constructor
      · intro h
        have hquiet : (ds.foldl collect ⟨[], [], []⟩).reports = [] :=
          List.prefix_nil.1 ((collect_reports _ d).trans (List.prefix_nil.2 h))
        obtain ⟨hnew, hreserved, hfree⟩ := ((collect_all hquiet).quiet_iff hquiet d).1 h
        obtain ⟨hnames, hidents, hall⟩ := ih.1 hquiet
        exact ⟨⟨hnames, hnew⟩, ⟨hidents, hfree⟩, hall, hreserved⟩
      · rintro ⟨⟨hnames, hnew⟩, ⟨hidents, hfree⟩, hall, hreserved⟩
        have hquiet := ih.2 ⟨hnames, hidents, hall⟩
        exact ((collect_all hquiet).quiet_iff hquiet d).2 ⟨hnew, hreserved, hfree⟩

/-! ## Invocations -/

/-- A tag invokes a name: somewhere in its body, however deep, an invocation of the name stands. -/
def Invokes (d : Definition) (name : Bytes) : Prop :=
  ∃ inner p args, Inside [] d.body inner (.invocation p name args)

section Walk

variable {p : Pos} {name : Bytes} {args : List Arg} {g : Bool}

mutual

theorem inside_of_walkNode (scope : List Bytes) (guarded : Bool) (n : Node)
    (h : (Node.invocation p name args, g) ∈ Node.walkNode guarded n) :
    ∃ inner, Inside scope [n] inner (.invocation p name args) := by
  cases n with
  | literal pos s => simp [Node.walkNode] at h
  | interpolation pos e esc => simp [Node.walkNode] at h
  | invocation pos callee as =>
      rcases List.mem_cons.1 h with heq | h
      · exact ⟨scope, .here (List.mem_singleton.2 (Prod.mk.inj heq).1)⟩
      · obtain ⟨q, a, body, ha, inner, hn⟩ := inside_of_walkArgs scope guarded as h
        exact ⟨inner, .block List.mem_cons_self ha hn⟩
  | cond pos e body other =>
      cases other with
      | none =>
          rcases List.mem_cons.1 h with heq | h
          · cases heq
          · obtain ⟨inner, hn⟩ := inside_of_walkNodes scope true body h
            exact ⟨inner, .yes List.mem_cons_self hn⟩
      | some other =>
          rcases List.mem_cons.1 h with heq | h
          · cases heq
          · rcases List.mem_append.1 h with h | h
            · obtain ⟨inner, hn⟩ := inside_of_walkNodes scope true body h
              exact ⟨inner, .yes List.mem_cons_self hn⟩
            · obtain ⟨inner, hn⟩ := inside_of_walkNodes scope true other h
              exact ⟨inner, .no List.mem_cons_self hn⟩
  | loop pos e item index body =>
      rcases List.mem_cons.1 h with heq | h
      · cases heq
      · obtain ⟨inner, hn⟩ :=
          inside_of_walkNodes (Inference.enterLoop scope item index) true body h
        exact ⟨inner, .loop List.mem_cons_self hn⟩

theorem inside_of_walkNodes (scope : List Bytes) (guarded : Bool) (ns : List Node)
    (h : (Node.invocation p name args, g) ∈ Node.walkNodes guarded ns) :
    ∃ inner, Inside scope ns inner (.invocation p name args) := by
  cases ns with
  | nil => cases h
  | cons n ns =>
      rcases List.mem_append.1 h with h | h
      · obtain ⟨inner, hn⟩ := inside_of_walkNode scope guarded n h
        exact ⟨inner, hn.mono (by simp)⟩
      · obtain ⟨inner, hn⟩ := inside_of_walkNodes scope guarded ns h
        exact ⟨inner, hn.mono fun m hm => List.mem_cons_of_mem n hm⟩

theorem inside_of_walkArgs (scope : List Bytes) (guarded : Bool) (as : List Arg)
    (h : (Node.invocation p name args, g) ∈ Node.walkArgs guarded as) :
    ∃ q a body, Arg.content q a body ∈ as ∧
      ∃ inner, Inside scope body inner (.invocation p name args) := by
  cases as with
  | nil => cases h
  | cons b as =>
      rcases List.mem_append.1 h with h | h
      · cases b with
        | text q a parts =>
            obtain ⟨part, -, hpart⟩ := List.mem_map.1 h
            cases part <;> cases (Prod.mk.inj hpart).1
        | expr q a e => cases h
        | content q a body =>
            obtain ⟨inner, hn⟩ := inside_of_walkNodes scope true body h
            exact ⟨q, a, body, List.mem_cons_self, inner, hn⟩
      · obtain ⟨q, a, body, ha, hn⟩ := inside_of_walkArgs scope guarded as h
        exact ⟨q, a, body, List.mem_cons_of_mem b ha, hn⟩

end

end Walk

theorem invokes_iff {d : Definition} {name : Bytes} :
    Invokes d name ↔ ∃ p g, (p, name, g) ∈ invoked d.body := by
  constructor
  · rintro ⟨inner, p, args, h⟩
    obtain ⟨g, hg⟩ := walkNodes_call d [] false d.body _ (Inference.call_of_inside h)
    exact ⟨p, g, List.mem_filterMap.2 ⟨_, hg, rfl⟩⟩
  · rintro ⟨p, g, h⟩
    obtain ⟨⟨n, guarded⟩, hwalk, hn⟩ := List.mem_filterMap.1 h
    cases n with
    | invocation q callee args =>
        obtain ⟨rfl, rfl, rfl⟩ := by simpa using hn
        obtain ⟨inner, hinside⟩ := inside_of_walkNodes [] false d.body hwalk
        exact ⟨inner, _, args, hinside⟩
    | literal | interpolation | cond | loop => cases hn

/-- A name that an invocation may have: that of a built-in element when it belongs to the compiler,
and else one of some given names. -/
def Resolves (names : List Bytes) (name : Bytes) : Prop :=
  if Name.isBuiltin name then name ∈ Builtin.names else name ∈ names

theorem find?_builtin_isSome {name : Bytes} :
    (Builtin.find? name).isSome = true ↔ name ∈ Builtin.names := by
  simp [Builtin.find?, Builtin.names, List.find?_isSome]

theorem unresolved_quiet_iff (names : List Bytes) (d : Definition) :
    hasErrors (unresolved names d) = false ↔ ∀ name, Invokes d name → Resolves names name := by
  rw [Diagnostic.hasErrors_eq_false]
  constructor
  · intro h name hinvokes
    obtain ⟨p, g, hinvoked⟩ := invokes_iff.1 hinvokes
    unfold Resolves
    split
    · next hbuiltin =>
      by_contra hunknown
      rw [← find?_builtin_isSome] at hunknown
      cases h _ (List.mem_filterMap.2 ⟨_, hinvoked, by simp only [hbuiltin, hunknown]; rfl⟩)
    · next hbuiltin =>
      by_contra hunknown
      rw [← List.contains_iff_mem] at hunknown
      cases h _ (List.mem_filterMap.2 ⟨_, hinvoked, by simp only [hbuiltin, hunknown]; rfl⟩)
  · intro h r hr
    obtain ⟨⟨p, name, g⟩, hinvoked, hreport⟩ := List.mem_filterMap.1 hr
    have hresolves := h name (invokes_iff.2 ⟨p, g, hinvoked⟩)
    unfold Resolves at hresolves
    split at hresolves
    · next hbuiltin => simp [hbuiltin, find?_builtin_isSome.2 hresolves] at hreport
    · next hbuiltin => simp [hbuiltin, hresolves] at hreport

theorem not_isDuplicate_unresolved (names : List Bytes) (d : Definition) :
    (unresolved names d).filter isDuplicate = [] := by
  have hhead : ∀ {message : Bytes}, message.head? = some 'u'.toUInt8 →
      Bytes.startsWith message "duplicate tag " = false := fun hm =>
    Bytes.not_startsWith hm (by decide) (by decide)
  have hbuiltin : ("unknown built-in <" : Bytes).head? = some 'u'.toUInt8 := by decide
  have htag : ("unknown tag " : Bytes).head? = some 'u'.toUInt8 := by decide
  rw [List.filter_eq_nil_iff]
  intro r hr
  obtain ⟨⟨p, name, g⟩, -, hreport⟩ := List.mem_filterMap.1 hr
  dsimp only at hreport
  split at hreport
  · split at hreport
    · cases hreport
    · obtain rfl := Option.some.inj hreport
      rw [Bool.not_eq_true]
      exact hhead (by simp [Diagnostic.suggesting, Diagnostic.error, hbuiltin])
  · split at hreport
    · cases hreport
    · obtain rfl := Option.some.inj hreport
      rw [Bool.not_eq_true]
      exact hhead (by simp [Diagnostic.suggesting, Diagnostic.error, htag])

theorem mem_callees {names : List Bytes} {d : Definition} {name : Bytes} :
    name ∈ callees names d ↔ Invokes d name ∧ Name.isBuiltin name = false ∧ name ∈ names := by
  rw [callees, Bytes.sort, List.mem_mergeSort, Bytes.mem_dedup, List.mem_filterMap, invokes_iff]
  constructor
  · rintro ⟨⟨p, callee, g⟩, hinvoked, hsome⟩
    dsimp only at hsome
    split at hsome
    · next hknown =>
      obtain rfl := Option.some.inj hsome
      rw [Bool.and_eq_true, Bool.not_eq_true', List.contains_iff_mem] at hknown
      exact ⟨⟨p, g, hinvoked⟩, hknown⟩
    · cases hsome
  · rintro ⟨⟨p, g, hinvoked⟩, hbuiltin, hname⟩
    exact ⟨_, hinvoked, by simp [hbuiltin, hname]⟩

theorem callees_sorted (names : List Bytes) (d : Definition) :
    (callees names d).Pairwise fun a b => Bytes.lt a b = true := by
  rw [← List.map_id (callees names d)]
  refine Bytes.pairwise_lt_mergeSort id ?_
  rw [List.map_id]
  exact Bytes.nodup_dedup _

/-! ## The whole set -/

theorem isDuplicate_recursionWarnings (defs : List Definition) :
    (recursionWarnings defs).filter isDuplicate = [] := by
  have htag : ("tag " : Bytes).head? = some 't'.toUInt8 := by decide
  rw [List.filter_eq_nil_iff]
  intro r hr
  obtain ⟨component, -, hreport⟩ := List.mem_filterMap.1 hr
  cases component with
  | nil => cases hreport
  | cons v others =>
      dsimp only at hreport
      split at hreport
      · cases hreport
      · obtain ⟨d, -, rfl⟩ := Option.map_eq_some_iff.1 hreport
        rw [Bool.not_eq_true]
        exact isDuplicate_of_head? (c := 't'.toUInt8) (by simp [Diagnostic.warning, htag])
          (by decide)

theorem recursionWarnings_quiet (defs : List Definition) :
    hasErrors (recursionWarnings defs) = false := by
  rw [Diagnostic.hasErrors_eq_false]
  intro r hr
  obtain ⟨component, -, hreport⟩ := List.mem_filterMap.1 hr
  cases component with
  | nil => cases hreport
  | cons v others =>
      dsimp only at hreport
      split at hreport
      · cases hreport
      · obtain ⟨d, -, rfl⟩ := Option.map_eq_some_iff.1 hreport
        rfl

theorem mem_names_gathered {ds : List Definition} {name : Bytes} :
    name ∈ (ds.foldl collect ⟨[], [], []⟩).defs.map (·.name) ↔ name ∈ ds.map (·.name) := by
  have hsome := congrArg Option.isSome ((gathers ds).find name)
  rw [Bool.eq_iff_iff] at hsome
  simpa [List.find?_isSome] using hsome

/-- Nothing is an error exactly when names and identifiers are unique, no identifier is reserved and
every invocation has a name it may have. -/
theorem hasErrors_build (templates : List Template) :
    hasErrors (build templates).2 = false ↔
      ((declarations templates).map (·.name)).Nodup ∧
      ((declarations templates).map fun d => Name.exported d.name).Nodup ∧
      (∀ d ∈ declarations templates, Name.exported d.name ≠ Name.reserved) ∧
      ∀ d ∈ declarations templates, ∀ name, Invokes d name →
        Resolves ((declarations templates).map (·.name)) name := by
  let ds := declarations templates
  let collected := ds.foldl collect ⟨[], [], []⟩
  let defs := collected.defs.mergeSort fun a b => Bytes.le a.name b.name
  have hreports : (build templates).2 = collected.reports ++
      ds.flatMap (unresolved (defs.map (·.name))) ++ recursionWarnings defs := rfl
  have hcollected : hasErrors collected.reports = false ↔ collected.reports = [] :=
    ⟨Diagnostic.eq_nil_of_not_hasErrors (collect_all_isError ds), fun h => by rw [h]; rfl⟩
  have hresolves : ∀ name, Resolves (defs.map (·.name)) name ↔ Resolves (ds.map (·.name)) name := by
    intro name
    have hperm : defs.Perm collected.defs := List.mergeSort_perm ..
    rw [Resolves, Resolves, (hperm.map _).mem_iff, mem_names_gathered]
  rw [hreports, Diagnostic.hasErrors_append, Diagnostic.hasErrors_append,
    Diagnostic.hasErrors_flatMap, hcollected, collect_all_quiet_iff]
  simp only [unresolved_quiet_iff, hresolves, recursionWarnings_quiet, and_true, and_assoc]
  rfl

/-- What the tag set of some templates is, and what is reported on them. -/
theorem build_spec (templates : List Template) :
    let ds := declarations templates
    let names := ds.map (·.name)
    let set := (build templates).1
    let reports := (build templates).2
    (hasErrors reports = false ↔ names.Nodup ∧ (ds.map fun d => Name.exported d.name).Nodup ∧
        (∀ d ∈ ds, Name.exported d.name ≠ Name.reserved) ∧
        ∀ d ∈ ds, ∀ name, Invokes d name → Resolves names name) ∧
      reports.filter isDuplicate = (redeclared ds).map (fun (first, d) => duplicate first d) ∧
      (∀ name, set.find? name = ds.find? (·.name == name)) ∧
      set.names.Pairwise (fun a b => Bytes.lt a b = true) ∧
      (∀ name, name ∈ set.names ↔ name ∈ names) ∧
      ∀ d, set.find? d.name = some d →
        (set.callsOf d.name).Pairwise (fun a b => Bytes.lt a b = true) ∧
        ∀ name, name ∈ set.callsOf d.name ↔
          Invokes d name ∧ Name.isBuiltin name = false ∧ name ∈ names := by
  intro ds names set reports
  let collected := ds.foldl collect ⟨[], [], []⟩
  let defs := collected.defs.mergeSort fun a b => Bytes.le a.name b.name
  have hgathers : Gathers ds collected := gathers ds
  have hperm : defs.Perm collected.defs := List.mergeSort_perm ..
  have hnodup : (defs.map (·.name)).Nodup := (hperm.map _).nodup_iff.2 hgathers.names
  have hfind : ∀ name, set.find? name = ds.find? (·.name == name) := fun name =>
    (Bytes.find?_perm hperm hnodup name).trans (hgathers.find name)
  have hmem : ∀ name, name ∈ defs.map (·.name) ↔ name ∈ names := fun name =>
    (hperm.map _).mem_iff.trans mem_names_gathered
  refine ⟨hasErrors_build templates, ?_, hfind, Bytes.pairwise_lt_mergeSort _ hgathers.names, hmem, ?_⟩
  · have hreports : reports = collected.reports ++ ds.flatMap (unresolved (defs.map (·.name))) ++
        recursionWarnings defs := rfl
    rw [hreports, List.filter_append, List.filter_append, hgathers.duplicates,
      isDuplicate_recursionWarnings, List.filter_flatMap]
    simp [not_isDuplicate_unresolved]
  · intro d hd
    have hcalls : set.callsOf d.name = callees (defs.map (·.name)) d := by
      let calls := defs.map fun e => (e.name, callees (defs.map (·.name)) e)
      have hkeys : (calls.map (·.1)).Nodup := by
        rwa [List.map_map]
      have hentry : (d.name, callees (defs.map (·.name)) d) ∈ calls :=
        List.mem_map.2 ⟨d, List.mem_of_find?_eq_some hd, rfl⟩
      have hfound := Bytes.find?_of_nodup hkeys hentry
      show ((calls.find? (·.1 == d.name)).map (·.2)).getD [] = _
      rw [hfound]
      rfl
    rw [hcalls]
    exact ⟨callees_sorted _ d, fun name => by rw [mem_callees, hmem]⟩

/-- A tag whose name belongs to the compiler cannot be invoked: the page `a` invokes a tag of the
set, and yet this is an error. -/
theorem builtin_name_unresolved :
    let tag : Definition := ⟨"t:foo", true, ⟨1, 1⟩, [], [.literal ⟨1, 1⟩ "x"], "t:foo.html", "t:foo"⟩
    let page : Definition := ⟨"a", true, ⟨1, 1⟩, [], [.invocation ⟨1, 1⟩ "t:foo" []], "a.html", "a"⟩
    let templates : List Template := [⟨"a", "a.html", [page]⟩, ⟨"t:foo", "t:foo.html", [tag]⟩]
    ((declarations templates).map (·.name)).Nodup ∧
      ((declarations templates).map fun d => Name.exported d.name).Nodup ∧
      (∀ d ∈ declarations templates, Name.exported d.name ≠ Name.reserved) ∧
      (∀ d ∈ declarations templates, ∀ name, Invokes d name →
        name ∈ (declarations templates).map (·.name)) ∧
      hasErrors (build templates).2 = true := by
  intro tag page templates
  have hdeclarations : declarations templates = [page, tag] := by
    have hsorted : templates.mergeSort (fun a b => Bytes.le a.path b.path) = templates :=
      List.mergeSort_of_pairwise (by decide)
    rw [declarations, hsorted]
    rfl
  rw [hdeclarations]
  have hinvokes : ∀ name, Invokes page name ↔ name = "t:foo" := by
    intro name
    have hbody : invoked page.body = [((⟨1, 1⟩ : Pos), ("t:foo" : Bytes), false)] := rfl
    rw [invokes_iff, hbody]
    simp
  have hliteral : ∀ name, ¬ Invokes tag name := by
    intro name
    have hbody : invoked tag.body = [] := rfl
    rw [invokes_iff, hbody]
    simp
  refine ⟨by decide, by decide, by decide, ?_, ?_⟩
  · intro d hd name hname
    rcases List.mem_cons.1 hd with rfl | hd
    · rw [(hinvokes name).1 hname]
      decide
    · rw [List.mem_singleton.1 hd] at hname
      exact absurd hname (hliteral name)
  · rw [← Bool.not_eq_false]
    intro hquiet
    have hunresolved :=
      (Diagnostic.hasErrors_append _ _).1 ((Diagnostic.hasErrors_append _ _).1 hquiet).1
    have hpage : page ∈ declarations templates := by rw [hdeclarations]; exact List.mem_cons_self
    have hresolves := (unresolved_quiet_iff _ page).1
      (Diagnostic.hasErrors_flatMap.1 hunresolved.2 page hpage) _ ((hinvokes _).2 rfl)
    rw [Resolves, if_pos (by decide)] at hresolves
    exact absurd hresolves (by decide)

end TagSet

end TagLoom

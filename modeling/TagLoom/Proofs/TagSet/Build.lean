import Mathlib.Data.List.Induction
import Mathlib.Data.List.Nodup
import TagLoom.Inference
import TagLoom.Proofs.Diagnostic.Order

/-!
# Tag sets without errors

When collecting the tags of some templates reports no error, the set has every tag of the
templates, no two of them share a name or an exported identifier, and every call is of a built-in
element or of a tag of the set.
-/

namespace TagLoom

/-- What is made of each element and those before it, when one more element is put behind them. -/
theorem filterMap_earlier_concat {α β : Type} (f : List α → α → Option β) (as : List α) (a : α) :
    ((as ++ [a]).zipIdx.filterMap fun (b, i) => f ((as ++ [a]).take i) b) =
      (as.zipIdx.filterMap fun (b, i) => f (as.take i) b) ++ (f as a).toList := by
  have hbefore : (as.zipIdx.filterMap fun (b, i) => f ((as ++ [a]).take i) b) =
      as.zipIdx.filterMap fun (b, i) => f (as.take i) b := by
    refine List.filterMap_congr fun (b, i) hmem => ?_
    have hi : i < as.length := by
      have hlt := (List.mem_zipIdx hmem).2.1
      omega
    dsimp only
    rw [List.take_append_of_le_length (Nat.le_of_lt hi)]
  rw [List.zipIdx_append, List.filterMap_append, hbefore]
  simp [List.filterMap_cons]
  cases f as a <;> rfl

namespace TagSet

open Diagnostic (hasErrors)

/-! ## Collecting -/

/-- What has been collected of some tags when there is nothing to report. -/
structure Collects (ds : List Definition) (acc : Collected) : Prop where
  defs : acc.defs = ds
  idents : acc.idents = ds.map fun d => (Name.exported d.name, d.name)
  names : (ds.map (·.name)).Nodup
  exported : (ds.map fun d => Name.exported d.name).Nodup

theorem collects_nil : Collects [] ⟨[], [], []⟩ := ⟨rfl, rfl, List.nodup_nil, List.nodup_nil⟩

theorem collect_reports (acc : Collected) (d : Definition) :
    acc.reports <+: (collect acc d).reports := by
  unfold collect
  split
  · exact List.prefix_append _ _
  · dsimp only
    split
    · exact List.prefix_append _ _
    · split
      · exact List.prefix_append _ _
      · exact List.prefix_refl _

theorem collect_isError (acc : Collected) (d : Definition)
    (h : ∀ r ∈ acc.reports, r.isError = true) : ∀ r ∈ (collect acc d).reports, r.isError = true := by
  have hreport (message : Bytes) :
      ∀ r ∈ acc.reports ++ [report d message], r.isError = true :=
    List.forall_mem_append.2 ⟨h, fun r hr => by rw [List.mem_singleton.1 hr]; rfl⟩
  unfold collect
  split
  · exact hreport _
  · dsimp only
    split
    · exact hreport _
    · split
      · exact hreport _
      · exact h

theorem Collects.collect {ds : List Definition} {acc : Collected} (hacc : Collects ds acc)
    {d : Definition} (h : (collect acc d).reports = []) : Collects (ds ++ [d]) (collect acc d) := by
  have hreport (message : Bytes) : acc.reports ++ [report d message] ≠ [] := by simp
  unfold TagSet.collect at h ⊢
  split at h
  · exact absurd h (hreport _)
  · rename_i hname
    dsimp only at h ⊢
    split at h
    · exact absurd h (hreport _)
    · rename_i hreserved
      split at h
      · exact absurd h (hreport _)
      · rename_i hident
        rw [if_neg hreserved]
        rw [hacc.defs, List.find?_eq_none] at hname
        rw [hacc.idents, List.find?_eq_none] at hident
        have hnew : ∀ e ∈ ds, e.name ≠ d.name := fun e he heq => hname e he (beq_iff_eq.2 heq)
        have hfree : ∀ e ∈ ds, Name.exported e.name ≠ Name.exported d.name := fun e he heq =>
          hident _ (List.mem_map.2 ⟨e, he, rfl⟩) (beq_iff_eq.2 heq)
        refine ⟨?_, ?_, ?_, ?_⟩
        · simp [hacc.defs]
        · simp [hacc.idents]
        · rw [List.map_append, List.nodup_append]
          refine ⟨hacc.names, List.nodup_singleton _, ?_⟩
          simpa using hnew
        · rw [List.map_append, List.nodup_append]
          refine ⟨hacc.exported, List.nodup_singleton _, ?_⟩
          simpa using hfree

theorem collect_all {ds : List Definition} (h : (ds.foldl collect ⟨[], [], []⟩).reports = []) :
    Collects ds (ds.foldl collect ⟨[], [], []⟩) := by
  induction ds using List.reverseRecOn with
  | nil => exact collects_nil
  | append_singleton ds d ih =>
      rw [List.foldl_concat] at h ⊢
      have hprefix := collect_reports (ds.foldl collect ⟨[], [], []⟩) d
      rw [h, List.prefix_nil] at hprefix
      exact (ih hprefix).collect h

theorem collect_all_isError (ds : List Definition) :
    ∀ r ∈ (ds.foldl collect ⟨[], [], []⟩).reports, r.isError = true := by
  induction ds using List.reverseRecOn with
  | nil => exact fun _ hr => (nomatch hr)
  | append_singleton ds d ih =>
      rw [List.foldl_concat]
      exact collect_isError _ d ih

/-! ## Calls -/

section Calls

open Inference (CallSite nodeCalls bodyCalls argCalls)

variable (d : Definition)

mutual

theorem walkNode_call (scope : List Bytes) (guarded : Bool) (n : Node) :
    ∀ c ∈ nodeCalls d scope n, ∃ g, (Node.invocation c.pos c.name c.args, g) ∈
      Node.walkNode guarded n := by
  cases n with
  | literal pos s => exact fun _ hc => (nomatch hc)
  | interpolation pos e esc => exact fun _ hc => (nomatch hc)
  | invocation pos name args =>
      refine List.forall_mem_cons.2 ⟨⟨guarded, List.mem_cons_self⟩, fun c hc => ?_⟩
      obtain ⟨g, hg⟩ := walkArgs_call scope guarded args c hc
      exact ⟨g, List.mem_cons_of_mem _ hg⟩
  | cond pos e body other =>
      cases other with
      | none =>
          intro c hc
          obtain ⟨g, hg⟩ := walkNodes_call scope true body c hc
          exact ⟨g, List.mem_cons_of_mem _ hg⟩
      | some other =>
          refine List.forall_mem_append.2 ⟨fun c hc => ?_, fun c hc => ?_⟩
          · obtain ⟨g, hg⟩ := walkNodes_call scope true body c hc
            exact ⟨g, List.mem_cons_of_mem _ (List.mem_append_left _ hg)⟩
          · obtain ⟨g, hg⟩ := walkNodes_call scope true other c hc
            exact ⟨g, List.mem_cons_of_mem _ (List.mem_append_right _ hg)⟩
  | loop pos e item index body =>
      intro c hc
      obtain ⟨g, hg⟩ := walkNodes_call (Inference.enterLoop scope item index) true body c hc
      exact ⟨g, List.mem_cons_of_mem _ hg⟩

theorem walkNodes_call (scope : List Bytes) (guarded : Bool) (ns : List Node) :
    ∀ c ∈ bodyCalls d scope ns, ∃ g, (Node.invocation c.pos c.name c.args, g) ∈
      Node.walkNodes guarded ns := by
  cases ns with
  | nil => exact fun _ hc => (nomatch hc)
  | cons n ns =>
      refine List.forall_mem_append.2 ⟨fun c hc => ?_, fun c hc => ?_⟩
      · obtain ⟨g, hg⟩ := walkNode_call scope guarded n c hc
        exact ⟨g, List.mem_append_left _ hg⟩
      · obtain ⟨g, hg⟩ := walkNodes_call scope guarded ns c hc
        exact ⟨g, List.mem_append_right _ hg⟩

theorem walkArgs_call (scope : List Bytes) (guarded : Bool) (args : List Arg) :
    ∀ c ∈ argCalls d scope args, ∃ g, (Node.invocation c.pos c.name c.args, g) ∈
      Node.walkArgs guarded args := by
  cases args with
  | nil => exact fun _ hc => (nomatch hc)
  | cons a args =>
      have hrest : ∀ c ∈ argCalls d scope args, ∃ g, (Node.invocation c.pos c.name c.args, g) ∈
          Node.walkArgs guarded (a :: args) := by
        intro c hc
        obtain ⟨g, hg⟩ := walkArgs_call scope guarded args c hc
        exact ⟨g, List.mem_append_right _ hg⟩
      cases a with
      | text pos name parts => exact hrest
      | expr pos name e => exact hrest
      | content pos name body =>
          refine List.forall_mem_append.2 ⟨fun c hc => ?_, hrest⟩
          obtain ⟨g, hg⟩ := walkNodes_call scope true body c hc
          exact ⟨g, List.mem_append_left _ hg⟩

end

variable {d}

/-- A call that is not reported is of a built-in element or of a known tag. -/
theorem call_resolved {names : List Bytes} (h : hasErrors (unresolved names d) = false) :
    ∀ c ∈ Inference.callSites d, Builtin.find? c.name = none →
      Name.isBuiltin c.name = false ∧ c.name ∈ names := by
  intro c hc hnone
  obtain ⟨g, hg⟩ := walkNodes_call d [] false d.body c hc
  have hinvoked : (c.pos, c.name, g) ∈ invoked d.body := List.mem_filterMap.2 ⟨_, hg, rfl⟩
  have hquiet : ∀ r ∈ unresolved names d, r.isError = false := by
    simpa [hasErrors] using h
  cases hbuiltin : Name.isBuiltin c.name with
  | true =>
      have hreport := hquiet _ (List.mem_filterMap.2 ⟨_, hinvoked, by simp [hbuiltin, hnone]; rfl⟩)
      cases hreport
  | false =>
      refine ⟨rfl, ?_⟩
      by_contra hname
      have hreport := hquiet _ (List.mem_filterMap.2 ⟨_, hinvoked, by simp [hbuiltin, hname]; rfl⟩)
      cases hreport

end Calls

/-! ## The whole set -/

structure Clean (templates : List Template) (set : TagSet) : Prop where
  names : (set.defs.map (·.name)).Nodup
  resolved : ∀ d ∈ set.defs, ∀ c ∈ Inference.callSites d, Builtin.find? c.name = none →
    Name.isBuiltin c.name = false ∧ c.name ∈ set.defs.map (·.name)
  exported : (set.defs.map fun d => Name.exported d.name).Nodup
  templates : set.templates.Perm templates
  defs : set.defs.Perm (set.templates.flatMap (·.defs))

theorem build_clean {templates : List Template} (h : hasErrors (build templates).2 = false) :
    Clean templates (build templates).1 := by
  let all := (templates.mergeSort fun a b => Bytes.le a.path b.path).flatMap (·.defs)
  let collected := all.foldl collect ⟨[], [], []⟩
  let defs := collected.defs.mergeSort fun a b => Bytes.le a.name b.name
  have hdefs : (build templates).1.defs = defs := rfl
  have hreported : (build templates).2 = collected.reports ++
      all.flatMap (unresolved (defs.map (·.name))) ++ recursionWarnings defs := rfl
  rw [hreported, Diagnostic.hasErrors_append, Diagnostic.hasErrors_append] at h
  obtain ⟨⟨hcollected, hunresolved⟩, -⟩ := h
  have hreports : collected.reports = [] :=
    Diagnostic.eq_nil_of_not_hasErrors (collect_all_isError all) hcollected
  have hcollects : Collects all collected := collect_all hreports
  have hperm : defs.Perm all := by
    rw [← hcollects.defs]
    exact List.mergeSort_perm ..
  rw [← hdefs] at hperm
  refine ⟨(hperm.map _).nodup_iff.2 hcollects.names, fun d hd c hc hnone => ?_,
    (hperm.map _).nodup_iff.2 hcollects.exported, List.mergeSort_perm .., hperm⟩
  exact call_resolved (Diagnostic.hasErrors_flatMap.1 hunresolved d (hperm.mem_iff.1 hd)) c hc hnone

end TagSet

end TagLoom

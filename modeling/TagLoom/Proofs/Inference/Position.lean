import TagLoom.Inference
import TagLoom.Proofs.Template.Tree

/-!
# Places in a body

Where a node stands in the body of a tag, with the loop variables around it, and as what it reads
its expressions.  The inference meets every call and every read.
-/

namespace TagLoom

namespace Node

open Inference (enterLoop)

/-- A node stands among some nodes or anywhere inside them.  The first list holds the loop variables
around those nodes, the second the ones around the node. -/
inductive Inside : List Bytes → List Node → List Bytes → Node → Prop where
  | here {scope ns n} (h : n ∈ ns) : Inside scope ns scope n
  | yes {scope ns inner n p e body other} (h : .cond p e body other ∈ ns)
      (hn : Inside scope body inner n) : Inside scope ns inner n
  | no {scope ns inner n p e body other} (h : .cond p e body (some other) ∈ ns)
      (hn : Inside scope other inner n) : Inside scope ns inner n
  | loop {scope ns inner n p e item index body} (h : .loop p e item index body ∈ ns)
      (hn : Inside (enterLoop scope item index) body inner n) : Inside scope ns inner n
  | block {scope ns inner n p name args q a body} (h : .invocation p name args ∈ ns)
      (ha : .content q a body ∈ args) (hn : Inside scope body inner n) : Inside scope ns inner n

theorem Inside.mono {scope inner : List Bytes} {ns ns' : List Node} {n : Node}
    (h : Inside scope ns inner n) (hsub : ∀ m ∈ ns, m ∈ ns') : Inside scope ns' inner n := by
  cases h with
  | here h => exact .here (hsub _ h)
  | yes h hn => exact .yes (hsub _ h) hn
  | no h hn => exact .no (hsub _ h) hn
  | loop h hn => exact .loop (hsub _ h) hn
  | block h ha hn => exact .block (hsub _ h) ha hn

/-- What a node reads an expression for. -/
inductive Role where
  /-- It is written to the page. -/
  | shown
  | test
  | collection
  /-- It is a part of a quoted argument. -/
  | part
  /-- It is an argument of a call. -/
  | argument (callee : Bytes)
deriving DecidableEq

def Role.mode : Role → Inference.ReadMode
  | .shown => .render
  | .test | .collection => .structural
  | .part => .scalar
  | .argument _ => .passThrough

inductive ReadsAs : Node → Role → Expression → Prop where
  | shown {p e esc} : ReadsAs (.interpolation p e esc) .shown e
  | test {p e body other} : ReadsAs (.cond p e body other) .test e
  | collection {p e item index body} : ReadsAs (.loop p e item index body) .collection e
  | part {p name args q a parts r e} (h : .text q a parts ∈ args)
      (he : .interpolation r e ∈ parts) : ReadsAs (.invocation p name args) .part e
  | argument {p name args q a e} (h : .expr q a e ∈ args) :
      ReadsAs (.invocation p name args) (.argument name) e

end Node

namespace Inference

open Node (Inside ReadsAs)

variable {scope inner : List Bytes} {ns body : List Node} {args : List Arg}

/-! ## Calls -/

theorem mem_bodyCalls {d : Definition} {n : Node} (h : n ∈ ns) :
    ∀ c ∈ nodeCalls d scope n, c ∈ bodyCalls d scope ns := by
  intro c hc
  induction ns with
  | nil => cases h
  | cons m ns ih =>
      rw [bodyCalls]
      rcases List.mem_cons.1 h with rfl | h
      · exact List.mem_append_left _ hc
      · exact List.mem_append_right _ (ih h)

theorem mem_argCalls {d : Definition} {q : Pos} {a : Bytes} (h : .content q a body ∈ args) :
    ∀ c ∈ bodyCalls d scope body, c ∈ argCalls d scope args := by
  intro c hc
  induction args with
  | nil => cases h
  | cons b args ih =>
      rcases List.mem_cons.1 h with rfl | hmem
      · exact List.mem_append_left _ hc
      · cases b with
        | content q' a' body' => exact List.mem_append_right _ (ih hmem)
        | text q' a' parts => exact ih hmem
        | expr q' a' e => exact ih hmem

theorem call_of_inside {d : Definition} {p : Pos} {name : Bytes}
    (h : Inside scope ns inner (.invocation p name args)) :
    ⟨d.name, d.file, inner, p, name, args⟩ ∈ bodyCalls d scope ns := by
  generalize hn : Node.invocation p name args = n at h
  induction h with
  | here h =>
      subst hn
      exact mem_bodyCalls h _ List.mem_cons_self
  | @yes _ _ _ _ _ _ _ other h _ ih =>
      refine mem_bodyCalls h _ ?_
      cases other with
      | none => exact ih hn
      | some other => exact List.mem_append_left _ (ih hn)
  | no h _ ih => exact mem_bodyCalls h _ (List.mem_append_right _ (ih hn))
  | loop h _ ih => exact mem_bodyCalls h _ (ih hn)
  | block h ha _ ih =>
      exact mem_bodyCalls h _ (List.mem_cons_of_mem _ (mem_argCalls ha _ (ih hn)))

section Calls

variable {d : Definition} {c : CallSite}

mutual

theorem inside_of_nodeCalls (scope : List Bytes) (n : Node) (hc : c ∈ nodeCalls d scope n) :
    (c.caller = d.name ∧ c.file = d.file) ∧
      Inside scope [n] c.scope (.invocation c.pos c.name c.args) := by
  cases n with
  | literal pos s => cases hc
  | interpolation pos e esc => cases hc
  | invocation pos name args =>
      rcases List.mem_cons.1 hc with rfl | hc
      · exact ⟨⟨rfl, rfl⟩, .here List.mem_cons_self⟩
      · obtain ⟨hd, q, a, body, ha, hn⟩ := inside_of_argCalls scope args hc
        exact ⟨hd, .block List.mem_cons_self ha hn⟩
  | cond pos e body other =>
      cases other with
      | none =>
          obtain ⟨hd, hn⟩ := inside_of_bodyCalls scope body hc
          exact ⟨hd, .yes List.mem_cons_self hn⟩
      | some other =>
          rcases List.mem_append.1 hc with hc | hc
          · obtain ⟨hd, hn⟩ := inside_of_bodyCalls scope body hc
            exact ⟨hd, .yes List.mem_cons_self hn⟩
          · obtain ⟨hd, hn⟩ := inside_of_bodyCalls scope other hc
            exact ⟨hd, .no List.mem_cons_self hn⟩
  | loop pos e item index body =>
      obtain ⟨hd, hn⟩ := inside_of_bodyCalls (enterLoop scope item index) body hc
      exact ⟨hd, .loop List.mem_cons_self hn⟩

theorem inside_of_bodyCalls (scope : List Bytes) (ns : List Node) (hc : c ∈ bodyCalls d scope ns) :
    (c.caller = d.name ∧ c.file = d.file) ∧
      Inside scope ns c.scope (.invocation c.pos c.name c.args) := by
  cases ns with
  | nil => cases hc
  | cons n ns =>
      rcases List.mem_append.1 hc with hc | hc
      · obtain ⟨hd, hn⟩ := inside_of_nodeCalls scope n hc
        exact ⟨hd, hn.mono (by simp)⟩
      · obtain ⟨hd, hn⟩ := inside_of_bodyCalls scope ns hc
        exact ⟨hd, hn.mono fun m hm => List.mem_cons_of_mem n hm⟩

theorem inside_of_argCalls (scope : List Bytes) (args : List Arg) (hc : c ∈ argCalls d scope args) :
    (c.caller = d.name ∧ c.file = d.file) ∧
      ∃ q a body, .content q a body ∈ args ∧
        Inside scope body c.scope (.invocation c.pos c.name c.args) := by
  cases args with
  | nil => cases hc
  | cons b args =>
      have hrest (hc : c ∈ argCalls d scope args) : (c.caller = d.name ∧ c.file = d.file) ∧
          ∃ q a body, .content q a body ∈ b :: args ∧
            Inside scope body c.scope (.invocation c.pos c.name c.args) := by
        obtain ⟨hd, q, a, body, ha, hn⟩ := inside_of_argCalls scope args hc
        exact ⟨hd, q, a, body, List.mem_cons_of_mem b ha, hn⟩
      cases b with
      | text q a parts => exact hrest hc
      | expr q a e => exact hrest hc
      | content q a body =>
          rcases List.mem_append.1 hc with hc | hc
          · obtain ⟨hd, hn⟩ := inside_of_bodyCalls scope body hc
            exact ⟨hd, q, a, body, List.mem_cons_self, hn⟩
          · exact hrest hc

end

end Calls

/-! ## Reads -/

theorem mem_inSourceOrder {nodes : List NodeReads} {r : Read} :
    r ∈ inSourceOrder nodes ↔ ∃ n ∈ nodes, r ∈ n.reads := by
  simp [inSourceOrder, List.mem_flatMap, List.mem_mergeSort]

theorem mem_bodyReads {n : Node} (h : n ∈ ns) : ∀ r ∈ nodeReads scope n, r ∈ bodyReads scope ns := by
  intro r hr
  induction ns with
  | nil => cases h
  | cons m ns ih =>
      rw [bodyReads]
      rcases List.mem_cons.1 h with rfl | h
      · exact List.mem_append_left _ hr
      · exact List.mem_append_right _ (ih h)

theorem mem_siblingReads {r : Read} :
    r ∈ bodyReads scope ns ↔ ∃ n ∈ siblingReads scope ns, r ∈ n.reads := by
  induction ns with
  | nil => simp [bodyReads, siblingReads]
  | cons n ns ih => simp [bodyReads, siblingReads, ih]

theorem mem_blockReads {q : Pos} {a : Bytes} (h : .content q a body ∈ args) :
    ∀ n ∈ siblingReads scope body, n ∈ blockReads scope args := by
  intro n hn
  induction args with
  | nil => cases h
  | cons b args ih =>
      rcases List.mem_cons.1 h with rfl | hmem
      · exact List.mem_append_left _ hn
      · cases b with
        | content q' a' body' => exact List.mem_append_right _ (ih hmem)
        | text q' a' parts => exact ih hmem
        | expr q' a' e => exact ih hmem

theorem reads_of_inside {n : Node} (h : Inside scope ns inner n) :
    ∀ r ∈ nodeReads inner n, r ∈ bodyReads scope ns := by
  intro r hr
  induction h with
  | here h => exact mem_bodyReads h r hr
  | @yes _ _ _ _ _ _ _ other h _ ih =>
      refine mem_bodyReads h r ?_
      cases other with
      | none => exact List.mem_cons_of_mem _ (ih hr)
      | some other => exact List.mem_cons_of_mem _ (List.mem_append_left _ (ih hr))
  | no h _ ih =>
      exact mem_bodyReads h r (List.mem_cons_of_mem _ (List.mem_append_right _ (ih hr)))
  | loop h _ ih => exact mem_bodyReads h r (List.mem_cons_of_mem _ (ih hr))
  | block h ha _ ih =>
      obtain ⟨m, hm, hrm⟩ := mem_siblingReads.1 (ih hr)
      refine mem_bodyReads h r (List.mem_append_right _ (mem_inSourceOrder.2 ?_))
      exact ⟨m, mem_blockReads ha m hm, hrm⟩

theorem mem_attrReads_part {q r : Pos} {a : Bytes} {parts : List Part} {e : Expression}
    (h : .text q a parts ∈ args) (he : .interpolation r e ∈ parts) :
    readOf scope e r .scalar ∈ attrReads scope args := by
  induction args with
  | nil => cases h
  | cons b args ih =>
      rcases List.mem_cons.1 h with rfl | hmem
      · exact List.mem_append_left _ (List.mem_filterMap.2 ⟨_, he, rfl⟩)
      · cases b with
        | text q' a' parts' => exact List.mem_append_right _ (ih hmem)
        | expr q' a' e' => exact List.mem_cons_of_mem _ (ih hmem)
        | content q' a' body => exact ih hmem

theorem mem_attrReads_argument {q : Pos} {a : Bytes} {e : Expression}
    (h : .expr q a e ∈ args) : readOf scope e q .passThrough ∈ attrReads scope args := by
  induction args with
  | nil => cases h
  | cons b args ih =>
      rcases List.mem_cons.1 h with rfl | hmem
      · exact List.mem_cons_self
      · cases b with
        | text q' a' parts' => exact List.mem_append_right _ (ih hmem)
        | expr q' a' e' => exact List.mem_cons_of_mem _ (ih hmem)
        | content q' a' body => exact ih hmem

theorem read_of_readsAs (inner : List Bytes) {n : Node} {role : Node.Role} {e : Expression}
    (h : n.ReadsAs role e) :
    ∃ pos, readOf inner e pos role.mode ∈ nodeReads inner n := by
  cases h with
  | shown => exact ⟨_, List.mem_singleton.2 rfl⟩
  | @test _ _ _ other =>
      cases other with
      | none => exact ⟨_, List.mem_cons_self⟩
      | some other => exact ⟨_, List.mem_cons_self⟩
  | collection => exact ⟨_, List.mem_cons_self⟩
  | part h he => exact ⟨_, List.mem_append_left _ (mem_attrReads_part h he)⟩
  | argument h => exact ⟨_, List.mem_append_left _ (mem_attrReads_argument h)⟩

/-! ## Names that are read -/

section Names

variable {P : LeafSpec} {Q : Bytes → Prop}

theorem readOf_names (hexpr : ∀ e, P.expr e → ∀ n ∈ e.names, Q n) (scope : List Bytes)
    {e : Expression} (he : P.expr e) (pos : Pos) (mode : ReadMode) :
    ∀ n ∈ (readOf scope e pos mode).names, Q n :=
  fun n hn => hexpr e he n (List.mem_filter.1 hn).1

mutual

theorem nodeReads_names (hexpr : ∀ e, P.expr e → ∀ n ∈ e.names, Q n) (scope : List Bytes) (n : Node)
    (hn : P.Node n) : ∀ r ∈ nodeReads scope n, ∀ name ∈ r.names, Q name := by
  cases n with
  | literal pos s => exact fun _ hr => (nomatch hr)
  | interpolation pos e esc =>
      exact List.forall_mem_cons.2 ⟨readOf_names hexpr scope hn pos _, fun _ hr => (nomatch hr)⟩
  | invocation pos name args =>
      refine List.forall_mem_append.2 ⟨attrReads_names hexpr scope args hn, fun r hr => ?_⟩
      obtain ⟨b, hb, hrb⟩ := List.mem_flatMap.1 hr
      exact blockReads_names hexpr scope args hn b (List.mem_mergeSort.1 hb) r hrb
  | cond pos e body other =>
      cases other with
      | none =>
          exact List.forall_mem_cons.2
            ⟨readOf_names hexpr scope hn.1 pos _, bodyReads_names hexpr scope body hn.2⟩
      | some other =>
          exact List.forall_mem_cons.2 ⟨readOf_names hexpr scope hn.1 pos _,
            List.forall_mem_append.2 ⟨bodyReads_names hexpr scope body hn.2.1,
              bodyReads_names hexpr scope other hn.2.2⟩⟩
  | loop pos e item index body =>
      exact List.forall_mem_cons.2
        ⟨readOf_names hexpr scope hn.1 pos _, bodyReads_names hexpr _ body hn.2.2.2⟩

theorem bodyReads_names (hexpr : ∀ e, P.expr e → ∀ n ∈ e.names, Q n) (scope : List Bytes)
    (ns : List Node) (hns : P.Nodes ns) : ∀ r ∈ bodyReads scope ns, ∀ name ∈ r.names, Q name := by
  cases ns with
  | nil => exact fun _ hr => (nomatch hr)
  | cons n ns =>
      exact List.forall_mem_append.2
        ⟨nodeReads_names hexpr scope n hns.1, bodyReads_names hexpr scope ns hns.2⟩

theorem attrReads_names (hexpr : ∀ e, P.expr e → ∀ n ∈ e.names, Q n) (scope : List Bytes)
    (args : List Arg) (hargs : P.Args args) :
    ∀ r ∈ attrReads scope args, ∀ name ∈ r.names, Q name := by
  cases args with
  | nil => exact fun _ hr => (nomatch hr)
  | cons a args =>
      have hrest := attrReads_names hexpr scope args hargs.2
      cases a with
      | text pos name parts =>
          refine List.forall_mem_append.2 ⟨fun r hr => ?_, hrest⟩
          obtain ⟨part, hpart, hread⟩ := List.mem_filterMap.1 hr
          cases part with
          | literal q s => cases hread
          | interpolation q e =>
              cases hread
              exact readOf_names hexpr scope (hargs.1 _ hpart) q _
      | expr pos name e =>
          exact List.forall_mem_cons.2 ⟨readOf_names hexpr scope hargs.1 pos _, hrest⟩
      | content pos name body => exact hrest

theorem blockReads_names (hexpr : ∀ e, P.expr e → ∀ n ∈ e.names, Q n) (scope : List Bytes)
    (args : List Arg) (hargs : P.Args args) :
    ∀ b ∈ blockReads scope args, ∀ r ∈ b.reads, ∀ name ∈ r.names, Q name := by
  cases args with
  | nil => exact fun _ hr => (nomatch hr)
  | cons a args =>
      have hrest := blockReads_names hexpr scope args hargs.2
      cases a with
      | text pos name parts => exact hrest
      | expr pos name e => exact hrest
      | content pos name body =>
          exact List.forall_mem_append.2 ⟨siblingReads_names hexpr scope body hargs.1, hrest⟩

theorem siblingReads_names (hexpr : ∀ e, P.expr e → ∀ n ∈ e.names, Q n) (scope : List Bytes)
    (ns : List Node) (hns : P.Nodes ns) :
    ∀ b ∈ siblingReads scope ns, ∀ r ∈ b.reads, ∀ name ∈ r.names, Q name := by
  cases ns with
  | nil => exact fun _ hr => (nomatch hr)
  | cons n ns =>
      exact List.forall_mem_cons.2
        ⟨nodeReads_names hexpr scope n hns.1, siblingReads_names hexpr scope ns hns.2⟩

end

end Names

end Inference

end TagLoom

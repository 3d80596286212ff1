import TagLoom.Placement
import TagLoom.Proofs.Template.Tree

/-!
# What placing keeps

Placing changes the escapes of interpolations only: the leaves stay, and so do the reads, and the
calls up to the escapes in the blocks that they hand on.
-/

namespace TagLoom.Placement

variable {P : LeafSpec} (t : Subject)

/-! ## Leaves -/

mutual

theorem meets_placeNode (scope : List Bytes) (m : Markup) (n : Node) (h : P.Node n) :
    P.Node (placeNode t scope m n).result := by
  cases n with
  | literal pos s => exact h
  | interpolation pos e esc =>
      rw [placeNode]
      cases escapeAt t scope pos e m with
      | ok esc => exact h
      | error d => exact h
  | invocation pos name args => exact meets_placeArgs scope name args h
  | cond pos e body other =>
      cases other with
      | none => exact ⟨h.1, meets_placeNodes scope m body h.2⟩
      | some other =>
          exact ⟨h.1, meets_placeNodes scope m body h.2.1, meets_placeNodes scope m other h.2.2⟩
  | loop pos e item index body =>
      exact ⟨h.1, h.2.1, h.2.2.1, meets_placeNodes _ m body h.2.2.2⟩

theorem meets_placeNodes (scope : List Bytes) (m : Markup) (ns : List Node) (h : P.Nodes ns) :
    P.Nodes (placeNodes t scope m ns).result := by
  cases ns with
  | nil => trivial
  | cons n ns => exact ⟨meets_placeNode scope m n h.1, meets_placeNodes scope _ ns h.2⟩

theorem meets_placeArgs (scope : List Bytes) (name : Bytes) (args : List Arg) (h : P.Args args) :
    P.Args (placeArgs t scope name args).1 := by
  cases args with
  | nil => trivial
  | cons a args =>
      have hargs := meets_placeArgs scope name args h.2
      cases a with
      | text pos arg parts => exact ⟨h.1, hargs⟩
      | expr pos arg e => exact ⟨h.1, hargs⟩
      | content pos arg body => exact ⟨meets_placeNodes scope .text body h.1, hargs⟩

end

/-! ## Reads -/

open Inference (nodeReads bodyReads attrReads blockReads siblingReads)

theorem pos_placeNode (scope : List Bytes) (m : Markup) (n : Node) :
    (placeNode t scope m n).result.pos = n.pos := by
  cases n with
  | interpolation pos e esc =>
      rw [placeNode]
      cases escapeAt t scope pos e m <;> rfl
  | cond pos e body other => cases other <;> rfl
  | _ => rfl

theorem attrReads_placeArgs (inner scope : List Bytes) (name : Bytes) (args : List Arg) :
    attrReads inner (placeArgs t scope name args).1 = attrReads inner args := by
  induction args with
  | nil => rfl
  | cons a args ih =>
      cases a with
      | text pos arg parts => exact congrArg (_ ++ ·) ih
      | expr pos arg e => exact congrArg (_ :: ·) ih
      | content pos arg body => exact ih

mutual

theorem nodeReads_placeNode (inner scope : List Bytes) (m : Markup) (n : Node) :
    nodeReads inner (placeNode t scope m n).result = nodeReads inner n := by
  cases n with
  | literal pos s => rfl
  | interpolation pos e esc =>
      rw [placeNode]
      cases escapeAt t scope pos e m <;> rfl
  | invocation pos name args =>
      rw [placeNode, nodeReads, nodeReads, attrReads_placeArgs, blockReads_placeArgs]
  | cond pos e body other =>
      cases other with
      | none => exact congrArg (_ :: ·) (bodyReads_placeNodes inner scope m body)
      | some other =>
          rw [placeNode, nodeReads, nodeReads, bodyReads_placeNodes inner scope m body,
            bodyReads_placeNodes inner scope m other]
  | loop pos e item index body => exact congrArg (_ :: ·) (bodyReads_placeNodes _ _ m body)

theorem bodyReads_placeNodes (inner scope : List Bytes) (m : Markup) (ns : List Node) :
    bodyReads inner (placeNodes t scope m ns).result = bodyReads inner ns := by
  cases ns with
  | nil => rfl
  | cons n ns =>
      rw [placeNodes, bodyReads, bodyReads, nodeReads_placeNode inner scope m n,
        bodyReads_placeNodes inner scope _ ns]

theorem blockReads_placeArgs (inner scope : List Bytes) (name : Bytes) (args : List Arg) :
    blockReads inner (placeArgs t scope name args).1 = blockReads inner args := by
  cases args with
  | nil => rfl
  | cons a args =>
      have hargs := blockReads_placeArgs inner scope name args
      cases a with
      | text pos arg parts => exact hargs
      | expr pos arg e => exact hargs
      | content pos arg body =>
          rw [placeArgs, blockReads, blockReads, siblingReads_placeNodes inner scope .text body, hargs]

theorem siblingReads_placeNodes (inner scope : List Bytes) (m : Markup) (ns : List Node) :
    siblingReads inner (placeNodes t scope m ns).result = siblingReads inner ns := by
  cases ns with
  | nil => rfl
  | cons n ns =>
      rw [placeNodes, siblingReads, siblingReads, nodeReads_placeNode inner scope m n, pos_placeNode,
        siblingReads_placeNodes inner scope _ ns]

end

/-! ## Calls -/

open Inference (CallSite nodeCalls bodyCalls argCalls enterLoop)

def placeCall (c : CallSite) : CallSite := { c with args := (placeArgs t c.scope c.name c.args).1 }

variable (d : Definition)

mutual

theorem nodeCalls_placeNode (scope : List Bytes) (m : Markup) (n : Node) :
    nodeCalls d scope (placeNode t scope m n).result = (nodeCalls d scope n).map (placeCall t) := by
  cases n with
  | literal pos s => rfl
  | interpolation pos e esc =>
      rw [placeNode]
      cases escapeAt t scope pos e m <;> rfl
  | invocation pos name args =>
      rw [placeNode, nodeCalls, nodeCalls, List.map_cons]
      exact congrArg _ (argCalls_placeArgs scope name args)
  | cond pos e body other =>
      cases other with
      | none => exact bodyCalls_placeNodes scope m body
      | some other =>
          rw [placeNode, nodeCalls, nodeCalls, List.map_append, bodyCalls_placeNodes scope m body,
            bodyCalls_placeNodes scope m other]
  | loop pos e item index body => exact bodyCalls_placeNodes (enterLoop scope item index) m body

theorem bodyCalls_placeNodes (scope : List Bytes) (m : Markup) (ns : List Node) :
    bodyCalls d scope (placeNodes t scope m ns).result =
      (bodyCalls d scope ns).map (placeCall t) := by
  cases ns with
  | nil => rfl
  | cons n ns =>
      rw [placeNodes, bodyCalls, bodyCalls, List.map_append, nodeCalls_placeNode scope m n,
        bodyCalls_placeNodes scope _ ns]

theorem argCalls_placeArgs (scope : List Bytes) (name : Bytes) (args : List Arg) :
    argCalls d scope (placeArgs t scope name args).1 =
      (argCalls d scope args).map (placeCall t) := by
  cases args with
  | nil => rfl
  | cons a args =>
      have hargs := argCalls_placeArgs scope name args
      cases a with
      | text pos arg parts => exact hargs
      | expr pos arg e => exact hargs
      | content pos arg body =>
          rw [placeArgs, argCalls, argCalls, List.map_append,
            bodyCalls_placeNodes scope .text body, hargs]

end

theorem find?_placeArgs (scope : List Bytes) (tag : Bytes) (args : List Arg) (name : Bytes) :
    Arg.find? (placeArgs t scope tag args).1 name = (Arg.find? args name).map fun
      | .content pos arg body => .content pos arg (placeNodes t scope .text body).result
      | a => a := by
  induction args with
  | nil => rfl
  | cons a args ih =>
      simp only [Arg.find?] at ih ⊢
      rw [List.find?_cons]
      cases a with
      | text pos arg parts =>
          rw [placeArgs, List.find?_cons, ih]
          cases (Arg.text pos arg parts).name == name <;> rfl
      | expr pos arg e =>
          rw [placeArgs, List.find?_cons, ih]
          cases (Arg.expr pos arg e).name == name <;> rfl
      | content pos arg body =>
          rw [placeArgs, List.find?_cons, ih]
          have hname : ∀ body, (Arg.content pos arg body).name = arg := fun _ => rfl
          rw [hname, hname]
          cases arg == name <;> rfl

theorem map_name_placeArgs (scope : List Bytes) (tag : Bytes) (args : List Arg) :
    (placeArgs t scope tag args).1.map Arg.name = args.map Arg.name := by
  induction args with
  | nil => rfl
  | cons a args ih => cases a <;> rw [placeArgs, List.map_cons, ih] <;> rfl

theorem not_isContent_placeArgs (scope : List Bytes) (tag : Bytes) {args : List Arg}
    (h : ∀ a ∈ args, Inference.Arg.isContent a = false) :
    ∀ a ∈ (placeArgs t scope tag args).1, Inference.Arg.isContent a = false := by
  induction args with
  | nil => exact h
  | cons a args ih =>
      obtain ⟨ha, hargs⟩ := List.forall_mem_cons.1 h
      cases a with
      | text pos arg parts => exact List.forall_mem_cons.2 ⟨rfl, ih hargs⟩
      | expr pos arg e => exact List.forall_mem_cons.2 ⟨rfl, ih hargs⟩
      | content pos arg body => cases ha

end TagLoom.Placement

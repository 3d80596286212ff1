import TagLoom.Proofs.Compilation.Accepted
import TagLoom.Proofs.Page.Refusal
import TagLoom.Proofs.Rendering.Pieces

/-!
# Rendering to a sink that refuses

A render over a sink that refuses some writes does what it does over a sink that takes everything, up
to the first refused write: `resists_runner` for tags and blocks at any depth, and `render_limited`
for a whole render to a sink with a limit.  What the model supplies has to stop at a refused write.
-/

namespace TagLoom.Rendering

open Page (Resists Looks)

variable {β : Type}

/-! ## Steps -/

/-- What comes after a step does not reach a page that the step left with an error. -/
theorem resists_onwards {x next : Page → Option Page} (hx : Resists x) (hnext : Resists next) :
    Resists fun p => onwards (x p) next := by
  intro R p p' hp h
  cases hstep : x p with
  | none => simp [hstep, onwards] at h
  | some p₁ =>
      obtain ⟨hgrows, q, hq, hfollows⟩ := hx hp hstep
      simp only [hstep, onwards, thenUnlessFailed] at h
      simp only [hq, onwards, thenUnlessFailed]
      cases hfollows with
      | whole hwhole =>
          rw [Page.under_err?]
          split at h
          · rename_i herr
            obtain rfl := Option.some.inj h
            exact ⟨hgrows, _, if_pos herr, .whole hwhole⟩
          · rename_i herr
            obtain ⟨hgrows', hnext'⟩ := hnext hwhole h
            rw [if_neg herr]
            exact ⟨hgrows.trans hgrows', hnext'⟩
      | cut hfree hcut =>
          have herr : q.err?.isSome := by rw [Page.err?_of_failure hcut.isSome]; exact hcut.isSome
          have hgrows' : p₁.sink.writes <+: p'.sink.writes ∧ p'.Free := by
            split at h
            · obtain rfl := Option.some.inj h
              exact ⟨List.prefix_rfl, hfree⟩
            · exact hnext.grows hfree h
          exact ⟨hgrows.trans hgrows'.1, q, if_pos herr, .cut hgrows'.2 (hcut.extend hgrows'.1)⟩

theorem resists_eachRound {ε : Type} {round : ε → Page → Option Page} {es : List ε}
    (hround : ∀ e ∈ es, Resists (round e)) : Resists (eachRound round es) := by
  induction es with
  | nil => exact Page.resists_self
  | cons e es ih =>
      obtain ⟨he, hes⟩ := List.forall_mem_cons.1 hround
      have heq : eachRound round (e :: es) = fun p => onwards (round e p) (eachRound round es) := rfl
      rw [heq]
      exact resists_onwards he (ih hes)

/-! ## Tags and blocks -/

/-- What tags and blocks are given stops at a refused write. -/
abbrev StopsEntries (env : Env NodeBlock) : Prop := Value.AllEntries Value.Stops env

/-- Tags and blocks resist when what they are given stops. -/
structure RunnerResists (r : Runner) : Prop where
  tag : ∀ name args, StopsEntries args → Resists (r.tag name args)
  block : ∀ code env, StopsEntries env → Resists (r.block code env)

variable {r : Runner}

def writeAs (r : Runner) (type : ParamType) (esc : Escape) (v : Value NodeBlock) (p : Page) :
    Option Page :=
  match type with
  | .content => p.writeContent r.block v.asContent
  | .text => some (p.writeText v.toText esc)
  | _ => p.writeValue r.block v esc

def writeBy (r : Runner) (b : Builtin) (args : List Arg) (v : Value NodeBlock) (p : Page) :
    Option Page :=
  match b.write with
  | .raw => p.writeValue r.block v .none
  | .markdown => some (p.writeMarkdown v)
  | .sanitized => some (p.writeSanitized v (b.staticArg args "policy"))

section Writes

variable (hr : RunnerResists r) {v : Value NodeBlock} (hv : v.All Value.Stops)
include hr hv

theorem resists_writeAs (type : ParamType) (esc : Escape) : Resists (writeAs r type esc v) := by
  cases type with
  | content => exact Page.resists_writeContent hr.block (Value.all_asContent (fun _ => trivial) hv)
  | text => exact Page.resists_raw _
  | _ => exact Page.resists_writeValue hr.block hv esc

theorem resists_writeBy (b : Builtin) (args : List Arg) : Resists (writeBy r b args v) := by
  unfold writeBy
  cases b.write with
  | raw => exact Page.resists_writeValue hr.block hv .none
  | markdown => exact Page.resists_writeMarkdown v
  | sanitized => exact Page.resists_writeSanitized v _

end Writes

/-! ## Values and arguments -/

variable [Language]

theorem looks_valueOf (types : Types) (env : Env β) (e : Expression) :
    Looks (valueOf types env e) := by
  unfold valueOf
  split
  · exact .pure _
  · split
    · exact .pure _
    · exact Page.looks_evaluate e _

theorem looks_textOf (types : Types) (env : Env β) (parts : List Part) :
    Looks (textOf types env parts) := by
  induction parts with
  | nil => exact .pure _
  | cons part parts ih =>
      cases part with
      | literal pos s => exact ih.bind fun rest => .pure (s ++ rest)
      | interpolation pos e =>
          exact (looks_valueOf types env e).bind fun v => ih.bind fun rest => .pure (v.toText ++ rest)

theorem looks_argument (types : Types) (env : Env NodeBlock) (args : List Arg) (param : Param) :
    Looks (argument types env args param) := by
  unfold argument
  cases Arg.find? args param.name with
  | none =>
      cases param.default with
      | none => exact .pure _
      | some e =>
          exact (looks_valueOf [] env e).bind fun v => .pure (convert v (typeOf [] e) param.type)
  | some a =>
      cases a with
      | content pos name body => exact .pure _
      | text pos name parts =>
          exact (looks_textOf types env parts).bind fun s =>
            .pure (convert (.text s) .text param.type)
      | expr pos name e =>
          exact (looks_valueOf types env e).bind fun v =>
            .pure (convert v (typeOf types e) param.type)

theorem looks_arguments (types : Types) (env : Env NodeBlock) (args : List Arg)
    (params : List Param) : Looks (arguments types env args params) := by
  induction params with
  | nil => exact .pure _
  | cons param params ih =>
      exact (looks_argument types env args param).bind fun v =>
        ih.bind fun rest => .pure ((param.name, v) :: rest)

theorem looks_builtinValue (types : Types) (env : Env NodeBlock) (args : List Arg) :
    Looks (builtinValue types env args) := by
  unfold builtinValue
  split
  · exact (looks_textOf types env _).bind fun s => .pure (Value.text s)
  · exact looks_valueOf types env _
  · exact .pure _

/-! ## Nodes -/

theorem resists_choice (types : Types) (env : Env NodeBlock) (e : Expression)
    {x y : Page → Option Page} (hx : Resists x) (hy : Resists y) :
    Resists fun p =>
      if holds (typeOf types e) (valueOf types env e p).1 then x (valueOf types env e p).2
      else y (valueOf types env e p).2 := by
  refine (looks_valueOf types env e).resists
    (x := fun v p => if holds (typeOf types e) v then x p else y p) fun p => ?_
  cases holds (typeOf types e) (valueOf types env e p).1 with
  | true => exact hx
  | false => exact hy

section Nodes

variable [LawfulLanguage] (hr : RunnerResists r) {env : Env NodeBlock} (henv : StopsEntries env)
include hr henv

theorem resists_writeExpr (types : Types) (e : Expression) (esc : Escape) :
    Resists (writeExpr r types env e esc) :=
  (looks_valueOf types env e).resists (x := writeAs r (typeOf types e) esc)
    fun p => resists_writeAs hr (all_valueOf henv types e p) (typeOf types e) esc

theorem resists_writeBuiltin (types : Types) (b : Builtin) (args : List Arg) :
    Resists (writeBuiltin r types env b args) :=
  (looks_builtinValue types env args).resists (x := writeBy r b args)
    fun p => resists_writeBy hr (all_builtinValue henv types args p) b args

theorem resists_invoke (bundle : Bundle) (types : Types) (name : Bytes) (args : List Arg) :
    Resists (invoke bundle r types env name args) := by
  unfold invoke
  cases Builtin.find? name with
  | some b => exact resists_writeBuiltin hr henv types b args
  | none =>
      refine (looks_arguments types env args _).resists fun p => hr.tag name _ ?_
      exact all_arguments (fun _ => trivial) henv types (fun _ _ _ _ => trivial) _ p

end Nodes

mutual

theorem resists_renderNode [LawfulLanguage] (hr : RunnerResists r) (bundle : Bundle) (types : Types)
    {env : Env NodeBlock} (henv : StopsEntries env) (n : Node) :
    Resists (renderNode bundle r types env n) := by
  cases n with
  | literal pos s =>
      simp only [renderNode]
      exact Page.resists_raw s
  | interpolation pos e esc =>
      simp only [renderNode]
      exact resists_writeExpr hr henv types e _
  | invocation pos name args =>
      simp only [renderNode]
      exact resists_invoke hr henv bundle types name args
  | cond pos e body otherwise =>
      have hbody := resists_renderNodes hr bundle types henv [] body
      cases otherwise with
      | none =>
          have heq := funext (renderNode.eq_4 bundle r types env · pos e body none)
          rw [heq]
          exact resists_choice types env e hbody Page.resists_self
      | some nodes =>
          have heq := funext (renderNode.eq_4 bundle r types env · pos e body (some nodes))
          rw [heq]
          exact resists_choice types env e hbody (resists_renderNodes hr bundle types henv [] nodes)
  | loop pos e item index body =>
      simp only [renderNode]
      refine (looks_valueOf types env e).resists
        (x := fun v p => eachRound _ (p.entries v).1 (p.entries v).2)
        fun p => (Page.looks_entries _).resists (x := eachRound _) fun q =>
          resists_eachRound fun entry hentry => ?_
      have hround := allEntries_bindRound henv item index
        (Page.all_entries (all_valueOf henv types e p) q entry hentry)
      exact resists_renderNodes hr bundle (types.withLoop item index) hround [] body

theorem resists_renderNodes [LawfulLanguage] (hr : RunnerResists r) (bundle : Bundle) (types : Types)
    {env : Env NodeBlock} (henv : StopsEntries env) (pending : Bytes) (ns : List Node) :
    Resists (renderNodes bundle r types env pending ns) := by
  cases ns with
  | nil =>
      simp only [renderNodes]
      exact Page.resists_raw pending
  | cons n rest =>
      by_cases hliteral : ∃ pos s, n = .literal pos s
      · obtain ⟨pos, s, rfl⟩ := hliteral
        simp only [renderNodes]
        exact resists_renderNodes hr bundle types henv (pending ++ s) rest
      · have hne : ∀ pos s, n ≠ .literal pos s := fun pos s heq => hliteral ⟨pos, s, heq⟩
        have hnode := resists_onwards (resists_renderNode hr bundle types henv n)
          (resists_renderNodes hr bundle types henv [] rest)
        have heq (p : Page) : renderNodes bundle r types env pending (n :: rest) p =
            if pending.isEmpty then onwards (renderNode bundle r types env n p)
              (renderNodes bundle r types env [] rest)
            else onwards (some (p.raw pending)) fun p => onwards (renderNode bundle r types env n p)
              (renderNodes bundle r types env [] rest) := by
          rw [renderNodes.eq_3 _ _ _ _ _ _ _ _ hne]
          cases hpending : pending.isEmpty with
          | true =>
              simp only [Page.raw, hpending, Bool.not_true, Bool.false_and, Bool.false_eq_true,
                if_true, if_false]
              rfl
          | false =>
              simp only [Bool.not_false, Bool.true_and, Bool.false_eq_true, if_false]
              rfl
        rw [funext heq]
        cases pending.isEmpty with
        | true => exact hnode
        | false => exact resists_onwards (Page.resists_raw pending) hnode

end

end TagLoom.Rendering

namespace TagLoom.Bundle

open Rendering
open Page (Resists Looks RefusedAs)
open Sink (Rule)

variable [Language]

variable {R : Rule} {p p' : Page} {e : Option RenderError}

end TagLoom.Bundle

namespace TagLoom.Compilation

open Rendering (StopsEntries)

/-! ## Two pages -/

end TagLoom.Compilation

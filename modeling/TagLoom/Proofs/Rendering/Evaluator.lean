import TagLoom.Proofs.Rendering.Pieces
import TagLoom.Proofs.Rendering.Scope

/-!
# Rendering with another evaluator

The renderer with two things left open: how an expression is evaluated, which may also end the
rendering, and what is rendered below the depth it goes to.  Rendering closed tags evaluates nothing
that is out of scope: an evaluator that gives the values of the expressions in scope renders what the
renderer does, whatever it does with other expressions.
-/

namespace TagLoom

namespace Rendering

/-- How an expression is evaluated; nothing when the rendering ends there. -/
abbrev Evaluator := Types → Env NodeBlock → Expression → Page → Option (Value NodeBlock × Page)

namespace Evaluator

/-! ## The renderer -/

variable [Language] (ev : Evaluator)

def textOf (types : Types) (env : Env NodeBlock) : List Part → Page → Option (Bytes × Page)
  | [], p => some ([], p)
  | .literal _ s :: parts, p =>
      (textOf types env parts p).map fun (rest, p) => (s ++ rest, p)
  | .interpolation _ e :: parts, p =>
      (ev types env e p).bind fun (v, p) =>
        (textOf types env parts p).map fun (rest, p) => (v.toText ++ rest, p)

def argument (types : Types) (env : Env NodeBlock) (args : List Arg) (param : Param) (p : Page) :
    Option (Value NodeBlock × Page) :=
  match Arg.find? args param.name with
  | none =>
      match param.default with
      | none => some (convert .nil param.type param.type, p)
      | some e => (ev [] env e p).map fun (v, p) => (convert v (typeOf [] e) param.type, p)
  | some (.content _ _ body) => some (convert (.block ⟨body, types⟩ env) .content param.type, p)
  | some (.text _ _ parts) =>
      (ev.textOf types env parts p).map fun (s, p) => (convert (.text s) .text param.type, p)
  | some (.expr _ _ e) =>
      (ev types env e p).map fun (v, p) => (convert v (typeOf types e) param.type, p)

def arguments (types : Types) (env : Env NodeBlock) (args : List Arg) :
    List Param → Page → Option (Env NodeBlock × Page)
  | [], p => some ([], p)
  | param :: params, p =>
      (ev.argument types env args param p).bind fun (v, p) =>
        (arguments types env args params p).map fun (rest, p) => ((param.name, v) :: rest, p)

def writeExpr (r : Runner) (types : Types) (env : Env NodeBlock) (e : Expression) (esc : Escape)
    (p : Page) : Option Page :=
  (ev types env e p).bind fun (v, p) =>
    match typeOf types e with
    | .content => p.writeContent r.block v.asContent
    | .text => some (p.writeText v.toText esc)
    | _ => p.writeValue r.block v esc

def builtinValue (types : Types) (env : Env NodeBlock) (args : List Arg) (p : Page) :
    Option (Value NodeBlock × Page) :=
  match Arg.find? args "value" with
  | some (.text _ _ parts) => (ev.textOf types env parts p).map fun (s, p) => (.text s, p)
  | some (.expr _ _ e) => ev types env e p
  | _ => some (.nil, p)

def writeBuiltin (r : Runner) (types : Types) (env : Env NodeBlock) (b : Builtin) (args : List Arg)
    (p : Page) : Option Page :=
  (ev.builtinValue types env args p).bind fun (v, p) =>
    match b.write with
    | .raw => p.writeValue r.block v .none
    | .markdown => some (p.writeMarkdown v)
    | .sanitized => some (p.writeSanitized v (b.staticArg args "policy"))

def invoke (bundle : Bundle) (r : Runner) (types : Types) (env : Env NodeBlock) (name : Bytes)
    (args : List Arg) (p : Page) : Option Page :=
  match Builtin.find? name with
  | some b => ev.writeBuiltin r types env b args p
  | none =>
      (ev.arguments types env args (((bundle.find? name).map (·.params)).getD []) p).bind
        fun (values, p) => r.tag name values p

mutual

def renderNode (bundle : Bundle) (r : Runner) (types : Types) (env : Env NodeBlock) :
    Node → Page → Option Page
  | .literal _ s, p => some (p.raw s)
  | .interpolation _ e esc, p => ev.writeExpr r types env e (esc.getD .html) p
  | .invocation _ name args, p => ev.invoke bundle r types env name args p
  | .cond _ e body otherwise, p =>
      (ev types env e p).bind fun (v, p) =>
        if holds (typeOf types e) v then renderNodes bundle r types env [] body p
        else match otherwise with
          | some nodes => renderNodes bundle r types env [] nodes p
          | none => some p
  | .loop _ e item index body, p =>
      (ev types env e p).bind fun (v, p) =>
        eachRound (fun entry p => renderNodes bundle r (types.withLoop item index)
          (bindRound env item index entry) [] body p) (p.entries v).1 (p.entries v).2

def renderNodes (bundle : Bundle) (r : Runner) (types : Types) (env : Env NodeBlock) :
    Bytes → List Node → Page → Option Page
  | pending, [], p => some (p.raw pending)
  | pending, .literal _ s :: rest, p => renderNodes bundle r types env (pending ++ s) rest p
  | pending, n :: rest, p =>
      let p := p.raw pending
      if !pending.isEmpty && p.err?.isSome then some p
      else match renderNode bundle r types env n p with
        | none => none
        | some p => thenUnlessFailed p (renderNodes bundle r types env [] rest)

end

/-- Renders tags and blocks that nest at most so deep, and what nests deeper as `bottom` does. -/
def runner (b : Bundle) (bottom : Runner) : Nat → Runner
  | 0 => bottom
  | n + 1 =>
      let r := runner b bottom n
      { tag := fun name args p =>
          match b.find? name with
          | some t => ev.renderNodes b r t.types args [] t.body p
          | none => some p
        block := fun code env p => ev.renderNodes b r code.types env [] code.nodes p }

def defaultValue (param : Param) (p : Page) : Option (Value NodeBlock × Page) :=
  match param.default with
  | some e => (ev [] [] e p).map fun (v, p) => (convert v (typeOf [] e) param.type, p)
  | none => some (.nil, p)

def bindParam (model : Env NodeBlock) (param : Param) (p : Page) :
    Option (Except RenderError (Value NodeBlock × Page)) :=
  if param.required || (model.get? param.name).isSome then some (Bundle.bindParam model param p)
  else (ev.defaultValue param p).map fun (v, p) =>
    .ok (if param.type == .text then .text v.toText else v, p)

def bindParams (model : Env NodeBlock) :
    List Param → Page → Option (Except RenderError (Env NodeBlock × Page))
  | [], p => some (.ok ([], p))
  | param :: params, p =>
      (ev.bindParam model param p).bind fun
        | .error e => some (.error e)
        | .ok (v, p) => (bindParams model params p).map fun
          | .error e => .error e
          | .ok (rest, p) => .ok ((param.name, v) :: rest, p)

def body (b : Bundle) (bottom : Runner) (depth : Nat) (t : LoadedTag) : TagBody NodeBlock :=
  fun model p => (ev.bindParams model t.params p).bind fun
    | .error e => some (p, some e)
    | .ok (args, p) => ((ev.runner b bottom depth).tag t.name args p).map fun p => (p, none)

def registry (b : Bundle) (bottom : Runner) (depth : Nat) : TagRegistry NodeBlock :=
  ⟨b.tags.map fun t => ⟨t.name, t.params.map Param.formal, ev.body b bottom depth t⟩, none⟩

end Evaluator

def Runner.halted : Runner := ⟨fun _ _ _ => none, fun _ _ _ => none⟩

end Rendering

namespace Bundle

open Rendering

variable [Language]

/-- The renderer, with what nests deeper than it goes rendered as `bottom` does. -/
def runnerOver (b : Bundle) (bottom : Runner) : Nat → Runner
  | 0 => bottom
  | n + 1 =>
      let r := b.runnerOver bottom n
      { tag := fun name args p =>
          match b.find? name with
          | some t => renderNodes b r t.types args [] t.body p
          | none => some p
        block := fun code env p => renderNodes b r code.types env [] code.nodes p }

def bodyOver (b : Bundle) (bottom : Runner) (depth : Nat) (t : LoadedTag) : TagBody NodeBlock :=
  fun model p =>
    match bindParams model t.params p with
    | .error e => some (p, some e)
    | .ok (args, p) => ((b.runnerOver bottom depth).tag t.name args p).map fun p => (p, none)

def registryOver (b : Bundle) (bottom : Runner) (depth : Nat) : TagRegistry NodeBlock :=
  ⟨b.tags.map fun t => ⟨t.name, t.params.map Param.formal, b.bodyOver bottom depth t⟩, none⟩

theorem registryWithin_eq (b : Bundle) (depth : Nat) :
    b.registryWithin depth = b.registryOver .halted depth := by
  have hrunner (n : Nat) : b.runner n = b.runnerOver .halted n := by
    induction n with
    | zero => rfl
    | succ n ih =>
        unfold runner runnerOver
        exact ih ▸ rfl
  unfold registryWithin registryOver body bodyOver
  exact hrunner depth ▸ rfl

end Bundle

namespace Rendering

theorem eachRound_congr {ε : Type} {f g : ε → Page → Option Page} {es : List ε}
    (h : ∀ e ∈ es, ∀ p, f e p = g e p) (p : Page) : eachRound f es p = eachRound g es p := by
  induction es generalizing p with
  | nil => rfl
  | cons e es ih =>
      obtain ⟨he, hes⟩ := List.forall_mem_cons.1 h
      rw [eachRound, eachRound, he p]
      cases g e p with
      | none => rfl
      | some q =>
          dsimp only
          rw [thenUnlessFailed, thenUnlessFailed, ih hes]

open Node (ReadsAt)

variable [Language] {b : Bundle} {ev : Evaluator} {env : Env NodeBlock}

/-- An evaluator gives the value of every expression that is in scope. -/
def Evaluator.Agrees (ev : Evaluator) (b : Bundle) : Prop :=
  ∀ types env e p, InScope b env e → ev types env e p = some (valueOf types env e p)

open Classical in
noncomputable def Evaluator.guarded (b : Bundle) : Evaluator := fun types env e p =>
  if InScope b env e then some (valueOf types env e p) else none

theorem agrees_guarded (b : Bundle) : (Evaluator.guarded b).Agrees b :=
  fun _ _ _ _ h => if_pos h

/-! ## Arguments -/

theorem textOf_eq (hev : ev.Agrees b) {parts : List Part}
    (h : ∀ r e, .interpolation r e ∈ parts → InScope b env e) (types : Types) (p : Page) :
    ev.textOf types env parts p = some (textOf types env parts p) := by
  induction parts generalizing p with
  | nil => rfl
  | cons part parts ih =>
      have hrest := ih fun r e he => h r e (List.mem_cons_of_mem _ he)
      cases part with
      | literal q s =>
          rw [Evaluator.textOf, hrest]
          rfl
      | interpolation q e =>
          rw [Evaluator.textOf, hev types env e p (h q e List.mem_cons_self), Option.bind_some,
            textOf]
          generalize valueOf types env e p = result
          obtain ⟨v, r⟩ := result
          dsimp only
          rw [hrest]
          rfl

section Calls

variable {pos : Pos} {name : Bytes} {as : List Arg}
  (hreads : ∀ q e, (Node.invocation pos name as).ReadsAt q e → InScope b env e)
include hreads

theorem textOf_eq_of_find? (hev : ev.Agrees b) {n : Bytes} {q : Pos} {a : Bytes} {parts : List Part}
    (h : Arg.find? as n = some (.text q a parts)) (types : Types) (p : Page) :
    ev.textOf types env parts p = some (textOf types env parts p) :=
  textOf_eq hev (fun r e he => hreads r e (.part (List.mem_of_find?_eq_some h) he)) types p

theorem eval_eq_of_find? (hev : ev.Agrees b) {n : Bytes} {q : Pos} {a : Bytes} {e : Expression}
    (h : Arg.find? as n = some (.expr q a e)) (types : Types) (p : Page) :
    ev types env e p = some (valueOf types env e p) :=
  hev types env e p (hreads q e (.argument (List.mem_of_find?_eq_some h)))

theorem argument_eq (hev : ev.Agrees b) {param : Param}
    (hdefault : ∀ e, param.default = some e → InScope b env e) (types : Types) (p : Page) :
    ev.argument types env as param p = some (argument types env as param p) := by
  rw [Evaluator.argument, argument]
  cases hfind : Arg.find? as param.name with
  | none =>
      cases he : param.default with
      | none => rfl
      | some e =>
          dsimp only
          rw [hev [] env e p (hdefault e he)]
          rfl
  | some a =>
      cases a with
      | content q a body => rfl
      | text q a parts =>
          dsimp only
          rw [textOf_eq_of_find? hreads hev hfind]
          rfl
      | expr q a e =>
          dsimp only
          rw [eval_eq_of_find? hreads hev hfind]
          rfl

theorem arguments_eq (hev : ev.Agrees b) {params : List Param}
    (hdefaults : ∀ param ∈ params, ∀ e, param.default = some e → InScope b env e) (types : Types)
    (p : Page) : ev.arguments types env as params p = some (arguments types env as params p) := by
  induction params generalizing p with
  | nil => rfl
  | cons param params ih =>
      obtain ⟨hdefault, hdefaults⟩ := List.forall_mem_cons.1 hdefaults
      rw [Evaluator.arguments, argument_eq hreads hev hdefault, Option.bind_some, arguments]
      generalize argument types env as param p = result
      obtain ⟨v, q⟩ := result
      dsimp only
      rw [ih hdefaults]
      rfl

theorem builtinValue_eq (hev : ev.Agrees b) (types : Types) (p : Page) :
    ev.builtinValue types env as p = some (builtinValue types env as p) := by
  rw [Evaluator.builtinValue, builtinValue]
  cases hfind : Arg.find? as "value" with
  | none => rfl
  | some a =>
      cases a with
      | content q a body => rfl
      | text q a parts =>
          dsimp only
          rw [textOf_eq_of_find? hreads hev hfind]
          rfl
      | expr q a e => exact eval_eq_of_find? hreads hev hfind types p

end Calls

variable {model : Env NodeBlock}

theorem bindParam_eq (hev : ev.Agrees b) {param : Param}
    (hdefault : ∀ e, param.default = some e → InScope b [] e) (p : Page) :
    ev.bindParam model param p = some (Bundle.bindParam model param p) := by
  rw [Evaluator.bindParam]
  split
  · rfl
  · rename_i hgiven
    rw [Bundle.bindParam, if_neg hgiven, Evaluator.defaultValue, Bundle.defaultValue]
    cases he : param.default with
    | none => rfl
    | some e =>
        dsimp only
        rw [hev [] [] e p (hdefault e he)]
        rfl

theorem bindParams_eq (hev : ev.Agrees b) {params : List Param}
    (hdefaults : ∀ param ∈ params, ∀ e, param.default = some e → InScope b [] e) (p : Page) :
    ev.bindParams model params p = some (Bundle.bindParams model params p) := by
  induction params generalizing p with
  | nil => rfl
  | cons param params ih =>
      obtain ⟨hdefault, hdefaults⟩ := List.forall_mem_cons.1 hdefaults
      rw [Evaluator.bindParams, bindParam_eq hev hdefault, Option.bind_some, Bundle.bindParams]
      cases Bundle.bindParam model param p with
      | error e => rfl
      | ok bound =>
          obtain ⟨v, q⟩ := bound
          dsimp only
          rw [ih hdefaults]
          cases hrest : Bundle.bindParams model params q with
          | error e => simp [bind, Except.bind, hrest]
          | ok rest => simp [bind, Except.bind, hrest, pure, Except.pure]

/-! ## Nodes -/

/-- Two runners render tags and blocks alike, when the values they are given are in scope. -/
structure Alike (b : Bundle) (r r' : Runner) : Prop where
  tag : ∀ name args p, (∀ t, b.find? name = some t → args.map (·.1) = t.params.map (·.name)) →
    ScopedEntries b args → r.tag name args p = r'.tag name args p
  block : ∀ code env p, Stands b code.nodes env → ScopedEntries b env →
    r.block code env p = r'.block code env p

variable {r r' : Runner} {types : Types}

theorem Alike.writeContent (hr : Alike b r r') {v : Value NodeBlock} (hv : Scoped b v) (p : Page) :
    p.writeContent r.block v = p.writeContent r'.block v := by
  cases v with
  | block code env =>
      obtain ⟨hstands, henv⟩ := hv
      rw [Page.writeContent, Page.writeContent, hr.block code env p hstands henv]
  | _ => rfl

theorem Alike.writeValue (hr : Alike b r r') {v : Value NodeBlock} (hv : Scoped b v) (p : Page)
    (esc : Escape) : p.writeValue r.block v esc = p.writeValue r'.block v esc := by
  rw [Page.writeValue, Page.writeValue, hr.writeContent hv]

theorem writeExpr_eq [LawfulLanguage] (hev : ev.Agrees b) (hr : Alike b r r')
    (henv : ScopedEntries b env)
    {e : Expression} (he : InScope b env e) (esc : Escape) (p : Page) :
    ev.writeExpr r types env e esc p = writeExpr r' types env e esc p := by
  have hv := all_valueOf henv types e p
  rw [Evaluator.writeExpr, hev types env e p he, Option.bind_some, writeExpr]
  generalize valueOf types env e p = result at hv
  obtain ⟨v, q⟩ := result
  dsimp only
  cases typeOf types e with
  | content => exact hr.writeContent (Value.all_asContent (fun _ => trivial) hv) q
  | text => rfl
  | _ => exact hr.writeValue hv q esc

theorem invoke_eq [LawfulLanguage] (hev : ev.Agrees b) (hb : b.Closed) (hr : Alike b r r')
    (henv : ScopedEntries b env) {pos : Pos} {name : Bytes} {as : List Arg}
    (hreads : ∀ q e, (Node.invocation pos name as).ReadsAt q e → InScope b env e)
    (hblocks : ∀ q a body, .content q a body ∈ as → Stands b body env) (p : Page) :
    ev.invoke b r types env name as p = invoke b r' types env name as p := by
  rw [Evaluator.invoke, invoke]
  cases Builtin.find? name with
  | some builtin =>
      have hv := all_builtinValue henv types as p
      dsimp only
      rw [Evaluator.writeBuiltin, builtinValue_eq hreads hev, Option.bind_some, writeBuiltin]
      generalize builtinValue types env as p = result at hv
      obtain ⟨v, q⟩ := result
      dsimp only
      cases builtin.write with
      | raw => exact hr.writeValue hv q .none
      | _ => rfl
  | none =>
      have hdefaults : ∀ param ∈ ((b.find? name).map (·.params)).getD [], ∀ e,
          param.default = some e → InScope b env e := by
        cases ht : b.find? name with
        | none => exact fun _ h => absurd h List.not_mem_nil
        | some t =>
            have hmem := List.mem_of_find?_eq_some ht
            exact fun param hparam e he =>
              .default hmem hparam he (hb.defaults t hmem param hparam e he)
      have hvalues := all_arguments (fun _ => trivial) henv types hblocks
        (((b.find? name).map (·.params)).getD []) p
      dsimp only
      rw [arguments_eq hreads hev hdefaults, Option.bind_some]
      refine hr.tag name _ _ (fun t ht => ?_) hvalues
      rw [names_arguments, ht]
      rfl

/-- Two renderings of a tag with the same arguments: one with an evaluator, one as the renderer does
it. -/
structure Paired (b : Bundle) (ev : Evaluator) (r r' : Runner) (t : LoadedTag)
    (args : Env NodeBlock) : Prop where
  agrees : ev.Agrees b
  closed : b.Closed
  alike : Alike b r r'
  tag : t ∈ b.tags
  names : args.map (·.1) = t.params.map (·.name)

variable {t : LoadedTag} {args : Env NodeBlock}

mutual

/-- A node of a tag is rendered alike, under any rounds of the loops around it. -/
theorem renderNode_eq [LawfulLanguage] (h : Paired b ev r r' t args) (n : Node) {rounds : List Round}
    {ns : List Node}
    (hns : Lies t args rounds ns) (hn : n ∈ ns) (henv : ScopedEntries b (envOf rounds args))
    (types : Types) (p : Page) :
    ev.renderNode b r types (envOf rounds args) n p =
      renderNode b r' types (envOf rounds args) n p := by
  have hreads (q : Pos) (e : Expression) (he : n.ReadsAt q e) : InScope b (envOf rounds args) e :=
    inScope_of_readsAt h.closed h.tag h.names hns hn he
  cases n with
  | literal pos s => rfl
  | interpolation pos e esc =>
      exact writeExpr_eq h.agrees h.alike henv (hreads pos e .shown) _ p
  | invocation pos name as =>
      refine invoke_eq h.agrees h.closed h.alike henv hreads (fun q a body ha => ?_) p
      exact ⟨t, h.tag, args, rounds, h.names, .block hns hn ha, rfl⟩
  | cond pos e body other =>
      rw [Evaluator.renderNode, h.agrees types _ e p (hreads pos e .test), Option.bind_some,
        renderNode]
      generalize valueOf types (envOf rounds args) e p = result
      obtain ⟨v, q⟩ := result
      dsimp only
      split
      · exact renderNodes_eq h body (.yes hns hn) (fun _ hm => hm) henv types [] q
      · cases other with
        | none => rfl
        | some other => exact renderNodes_eq h other (.no hns hn) (fun _ hm => hm) henv types [] q
  | loop pos e item index body =>
      have hv := all_valueOf henv types e p
      rw [Evaluator.renderNode, h.agrees types _ e p (hreads pos e .collection), Option.bind_some,
        renderNode]
      refine eachRound_congr (fun entry hentry q => ?_) _
      have hbody : Lies t args (⟨item, index, entry⟩ :: rounds) body :=
        .loop ⟨item, index, entry⟩ hns hn hentry
      have hround := scopedEntries_envOf_cons ⟨item, index, entry⟩ henv
        (Page.all_entries hv _ entry hentry)
      have heq :=
        renderNodes_eq h body hbody (fun _ hm => hm) hround (types.withLoop item index) [] q
      rwa [envOf_cons] at heq

theorem renderNodes_eq [LawfulLanguage] (h : Paired b ev r r' t args) (ms : List Node)
    {rounds : List Round}
    {ns : List Node}
    (hns : Lies t args rounds ns) (hms : ∀ m ∈ ms, m ∈ ns)
    (henv : ScopedEntries b (envOf rounds args)) (types : Types) (pending : Bytes) (p : Page) :
    ev.renderNodes b r types (envOf rounds args) pending ms p =
      renderNodes b r' types (envOf rounds args) pending ms p := by
  cases ms with
  | nil => rfl
  | cons n ms =>
      obtain ⟨hn, hms⟩ := List.forall_mem_cons.1 hms
      have hrest := renderNodes_eq h ms hns hms henv types
      have hnode := renderNode_eq h n hns hn henv types
      by_cases hliteral : ∃ pos s, n = .literal pos s
      · obtain ⟨pos, s, rfl⟩ := hliteral
        rw [Evaluator.renderNodes, renderNodes, hrest]
      · have hno : ∀ pos s, n = .literal pos s → False := fun pos s h => hliteral ⟨pos, s, h⟩
        have hafter := funext (hrest [])
        rw [Evaluator.renderNodes.eq_3 _ _ _ _ _ _ _ _ _ hno, renderNodes.eq_3 _ _ _ _ _ _ _ _ hno]
        exact hnode (p.raw pending) ▸ hafter ▸ rfl

end

/-! ## Tags -/

variable [LawfulLanguage]

theorem alike_runner (hev : ev.Agrees b) (hb : b.Closed) (bottom : Runner) (depth : Nat) :
    Alike b (ev.runner b bottom depth) (b.runnerOver bottom depth) := by
  induction depth with
  | zero => exact ⟨fun _ _ _ _ _ => rfl, fun _ _ _ _ _ => rfl⟩
  | succ n ih =>
      refine ⟨fun name args p hargs hscoped => ?_, fun code env p hstands hscoped => ?_⟩
      · rw [Evaluator.runner, Bundle.runnerOver]
        cases ht : b.find? name with
        | none =>
            simp only [ht]
        | some t =>
            simp only [ht]
            have hpaired : Paired b ev (ev.runner b bottom n) (b.runnerOver bottom n) t args :=
              ⟨hev, hb, ih, List.mem_of_find?_eq_some ht, hargs t ht⟩
            exact renderNodes_eq hpaired t.body .whole (fun _ hm => hm) hscoped t.types [] p
      · obtain ⟨t, ht, args, rounds, hargs, hlies, rfl⟩ := hstands
        exact renderNodes_eq ⟨hev, hb, ih, ht, hargs⟩ code.nodes hlies (fun _ hm => hm) hscoped
          code.types [] p

theorem body_eq (hev : ev.Agrees b) (hb : b.Closed) {t : LoadedTag} (ht : t ∈ b.tags)
    (hfind : b.find? t.name = some t) (hmodel : ScopedEntries b model) (bottom : Runner)
    (depth : Nat) (p : Page) : ev.body b bottom depth t model p = b.bodyOver bottom depth t model p := by
  have hdefaults : ∀ param ∈ t.params, ∀ e, param.default = some e → InScope b [] e :=
    fun param hparam e he => .default ht hparam he (hb.defaults t ht param hparam e he)
  rw [Evaluator.body, bindParams_eq hev hdefaults, Option.bind_some, Bundle.bodyOver]
  cases hbind : Bundle.bindParams model t.params p with
  | error e => rfl
  | ok bound =>
      have hscoped := all_bindParams (fun _ => trivial) hmodel hbind
      have hargs : ∀ u, b.find? t.name = some u → bound.1.map (·.1) = u.params.map (·.name) := by
        intro u hu
        rw [hfind] at hu
        cases hu
        exact names_bindParams hbind
      dsimp only
      rw [(alike_runner hev hb bottom depth).tag t.name bound.1 bound.2 hargs hscoped]

/-- Rendering a closed tag for a model evaluates only what is in scope, as deep as it goes. -/
theorem render_eq (hev : ev.Agrees b) (hb : b.Closed) (hmodel : ScopedEntries b model)
    (bottom : Runner) (depth : Nat) (tag : Bytes) (p : Page) :
    (ev.registry b bottom depth).render tag model p =
      (b.registryOver bottom depth).render tag model p := by
  have hlookup (body : LoadedTag → TagBody NodeBlock) :
      TagRegistry.lookup
        ⟨b.tags.map fun t => ⟨t.name, t.params.map Param.formal, body t⟩, none⟩ tag =
        (b.find? tag).map fun t => ⟨t.name, t.params.map Param.formal, body t⟩ := by
    rw [TagRegistry.lookup, Bundle.find?, List.find?_map]
    rfl
  rw [TagRegistry.render, TagRegistry.render, Evaluator.registry, Bundle.registryOver, hlookup,
    hlookup]
  cases ht : b.find? tag with
  | none => rfl
  | some t =>
      have hname : t.name = tag := by simpa using List.find?_some ht
      have hbody := body_eq hev hb (List.mem_of_find?_eq_some ht) (hname ▸ ht) hmodel bottom depth p
      simp only [Option.map_some, hbody]

end Rendering

end TagLoom

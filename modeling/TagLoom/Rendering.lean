import TagLoom.Page
import TagLoom.TagSet

/-!
# Rendering

Tags of a successful pass rendered straight from their bodies.  Neighbouring literals are one
write; a step that leaves an error on the page is the last one.

Tags may invoke each other without end, so rendering takes a depth: `Bundle.runner n` renders
whatever nests at most `n` invocations and blocks, and gives nothing for the rest.

A registry has tags by name, in order, with what a caller has to know to render them.  A registry
with a fallback holds no tags and answers every name with the same body.
-/

namespace TagLoom

/-! ## Registries -/

/-- A parameter as callers see it; the default is the text of its expression. -/
structure FormalParam where
  name : Bytes
  kind : ParamType
  required : Bool
  default : Bytes
deriving DecidableEq, Inhabited

/-- How a tag renders a model onto a page: the page and the error it returns, or nothing when
rendering does not come to an end. -/
abbrev TagBody (β : Type) := Env β → Page → Option (Page × Option RenderError)

structure RegisteredTag (β : Type) where
  name : Bytes
  params : List FormalParam
  body : TagBody β

structure TagRegistry (β : Type) where
  tags : List (RegisteredTag β)
  fallback : Option (TagBody β)

namespace TagRegistry

variable {β : Type}

def empty : TagRegistry β := ⟨[], none⟩

def ofFallback (body : TagBody β) : TagRegistry β := ⟨[], some body⟩

def isFallback (r : TagRegistry β) : Bool := r.fallback.isSome

def names (r : TagRegistry β) : List Bytes := r.tags.map (·.name)

def size (r : TagRegistry β) : Nat := r.tags.length

/-- Puts a tag where its name belongs; a tag of the same name gives way. -/
def insertTag (t : RegisteredTag β) : List (RegisteredTag β) → List (RegisteredTag β)
  | [] => [t]
  | u :: us =>
      if t.name == u.name then t :: us
      else if Bytes.le t.name u.name then t :: u :: us
      else u :: insertTag t us

def add (r : TagRegistry β) (t : RegisteredTag β) : TagRegistry β :=
  { r with tags := insertTag t r.tags }

def lookup (r : TagRegistry β) (name : Bytes) : Option (RegisteredTag β) :=
  match r.fallback with
  | some body => some ⟨name, [], body⟩
  | none => r.tags.find? (·.name == name)

/-- Renders a tag.  The error is the one its body returns, or else the one left on the page. -/
def render (r : TagRegistry β) (name : Bytes) : TagBody β := fun model p =>
  match r.lookup name with
  | none => some (p, some (.unknownTag name))
  | some t => (t.body model p).map fun (p, e) => (p, (e.or p.err?).map (RenderError.inTag name))

/-- Renders a tag within another page: on a page of its own over the same sink.  What goes wrong
there is an error of the outer page. -/
def embed (r : TagRegistry β) (name : Bytes) (model : Env β) (p : Page) : Option Page :=
  if p.failure.isSome then some p
  else (r.render name model { p with failure := none }).map fun (inner, e) =>
    let p := { p with sink := inner.sink }
    match e with
    | some e => p.fail e
    | none => p

end TagRegistry

/-! ## Bodies -/

abbrev Types := List (Bytes × ParamType)

namespace Types

def get? (t : Types) (name : Bytes) : Option ParamType := (t.find? (·.1 == name)).map (·.2)

def withLoop (t : Types) (item index : Bytes) : Types :=
  (if index.isEmpty then [] else [(index, .value)]) ++ (item, .value) :: t

end Types

/-- The code of a block: nodes, and the types of the names they may read. -/
structure NodeBlock where
  nodes : List Node
  types : Types

structure LoadedTag where
  name : Bytes
  params : List Param
  body : List Node

def LoadedTag.types (t : LoadedTag) : Types := t.params.map fun p => (p.name, p.type)

structure Bundle where
  tags : List LoadedTag

def Param.formal (p : Param) : FormalParam :=
  ⟨p.name, p.kind, p.required, (p.default.map (·.source)).getD []⟩

namespace Bundle

def find? (b : Bundle) (name : Bytes) : Option LoadedTag := b.tags.find? (·.name == name)

def ofTagSet (set : TagSet) (sigs : List Signature) : Bundle :=
  ⟨set.defs.map fun d =>
    ⟨d.name, ((Signature.find? sigs d.name).map (·.params)).getD [], d.body⟩⟩

end Bundle

namespace Rendering

/-! ## Expressions -/

def bindings {β : Type} (e : Expression) (env : Env β) : Env β :=
  e.names.filterMap fun n => (env.get? n).map (n, ·)

def literalType : Literal → ParamType
  | .text _ => .text
  | _ => .value

/-- The type of an expression: a name has its own, a text constant is text, and the rest are
values. -/
@[grind =] def typeOf (types : Types) (e : Expression) : ParamType :=
  match if e.isBare then types.get? e.source else none with
  | some t => t
  | none => ((e.literal?).map literalType).getD .value

/-- The value of an expression.  A name in scope and a constant need no evaluation. -/
@[grind =]
def valueOf [Language] {β : Type} (types : Types) (env : Env β) (e : Expression) (p : Page) :
    Value β × Page :=
  if e.isBare && (types.get? e.source).isSome then (env.get e.source, p)
  else match e.literal? with
    | some l => (l.toValue, p)
    | none => p.evaluate e (bindings e env)

def convert {β : Type} (v : Value β) (given wanted : ParamType) : Value β :=
  match wanted with
  | .text => if given == .text then v else .text v.toText
  | .content => v.asContent
  | _ => v

def textOf [Language] {β : Type} (types : Types) (env : Env β) : List Part → Page → Bytes × Page
  | [], p => ([], p)
  | .literal _ s :: parts, p =>
      let (rest, p) := textOf types env parts p
      (s ++ rest, p)
  | .interpolation _ e :: parts, p =>
      let (v, p) := valueOf types env e p
      let (rest, p) := textOf types env parts p
      (v.toText ++ rest, p)

/-! ## Arguments -/

variable [Language]

/-- The value an invocation hands to a parameter: its argument, or the default. -/
def argument (types : Types) (env : Env NodeBlock) (args : List Arg) (param : Param) (p : Page) :
    Value NodeBlock × Page :=
  match Arg.find? args param.name with
  | none =>
      match param.default with
      | none => (convert .nil param.type param.type, p)
      | some e =>
          let (v, p) := valueOf [] env e p
          (convert v (typeOf [] e) param.type, p)
  | some (.content _ _ body) => (convert (.block ⟨body, types⟩ env) .content param.type, p)
  | some (.text _ _ parts) =>
      let (s, p) := textOf types env parts p
      (convert (.text s) .text param.type, p)
  | some (.expr _ _ e) =>
      let (v, p) := valueOf types env e p
      (convert v (typeOf types e) param.type, p)

/-- The values an invocation hands to all parameters, in their order. -/
def arguments (types : Types) (env : Env NodeBlock) (args : List Arg) :
    List Param → Page → Env NodeBlock × Page
  | [], p => ([], p)
  | param :: params, p =>
      let (v, p) := argument types env args param p
      let (rest, p) := arguments types env args params p
      ((param.name, v) :: rest, p)

/-! ## Nodes -/

structure Runner where
  tag : Bytes → Env NodeBlock → Page → Option Page
  block : Page.RunBlock NodeBlock

def thenUnlessFailed (p : Page) (next : Page → Option Page) : Option Page :=
  if p.err?.isSome then some p else next p

def writeExpr (r : Runner) (types : Types) (env : Env NodeBlock) (e : Expression) (esc : Escape)
    (p : Page) : Option Page :=
  let (v, p) := valueOf types env e p
  match typeOf types e with
  | .content => p.writeContent r.block v.asContent
  | .text => some (p.writeText v.toText esc)
  | _ => p.writeValue r.block v esc

def builtinValue (types : Types) (env : Env NodeBlock) (args : List Arg) (p : Page) :
    Value NodeBlock × Page :=
  match Arg.find? args "value" with
  | some (.text _ _ parts) =>
      let (s, p) := textOf types env parts p
      (.text s, p)
  | some (.expr _ _ e) => valueOf types env e p
  | _ => (.nil, p)

def writeBuiltin (r : Runner) (types : Types) (env : Env NodeBlock) (b : Builtin) (args : List Arg)
    (p : Page) : Option Page :=
  let (v, p) := builtinValue types env args p
  match b.write with
  | .raw => p.writeValue r.block v .none
  | .markdown => some (p.writeMarkdown v)
  | .sanitized => some (p.writeSanitized v (b.staticArg args "policy"))

def invoke (bundle : Bundle) (r : Runner) (types : Types) (env : Env NodeBlock) (name : Bytes)
    (args : List Arg) (p : Page) : Option Page :=
  match Builtin.find? name with
  | some b => writeBuiltin r types env b args p
  | none =>
      let params := ((bundle.find? name).map (·.params)).getD []
      let (values, p) := arguments types env args params p
      r.tag name values p

def holds {β : Type} (type : ParamType) (v : Value β) : Bool :=
  if type == .content then
    match v.asContent with
    | .noContent => false
    | _ => true
  else v.isTruthy

def bindRound {β : Type} (env : Env β) (item index : Bytes) (entry : Value β × Value β) : Env β :=
  (if index.isEmpty then [] else [(index, entry.1)]) ++ (item, entry.2) :: env

/-- Runs a body for each entry until the page has an error. -/
def eachRound {ε : Type} (round : ε → Page → Option Page) : List ε → Page → Option Page
  | [], p => some p
  | e :: es, p =>
      match round e p with
      | none => none
      | some p => thenUnlessFailed p (eachRound round es)

mutual

@[grind =] def renderNode (bundle : Bundle) (r : Runner) (types : Types) (env : Env NodeBlock) :
    Node → Page → Option Page
  | .literal _ s, p => some (p.raw s)
  | .interpolation _ e esc, p => writeExpr r types env e (esc.getD .html) p
  | .invocation _ name args, p => invoke bundle r types env name args p
  | .cond _ e body otherwise, p =>
      let (v, p) := valueOf types env e p
      if holds (typeOf types e) v then renderNodes bundle r types env [] body p
      else match otherwise with
        | some nodes => renderNodes bundle r types env [] nodes p
        | none => some p
  | .loop _ e item index body, p =>
      let (v, p) := valueOf types env e p
      let (entries, p) := p.entries v
      eachRound (fun entry p =>
        renderNodes bundle r (types.withLoop item index) (bindRound env item index entry) [] body p)
        entries p

/-- Renders nodes one after the other; the text of literals not yet written comes along. -/
@[grind =] def renderNodes (bundle : Bundle) (r : Runner) (types : Types) (env : Env NodeBlock) :
    Bytes → List Node → Page → Option Page
  | pending, [], p => some (p.raw pending)
  | pending, .literal _ s :: rest, p => renderNodes bundle r types env (pending ++ s) rest p
  | pending, n :: rest, p =>
      let p := p.raw pending
      if !pending.isEmpty && p.err?.isSome then some p
      else match renderNode bundle r types env n p with
        | none => none
        | some p => thenUnlessFailed p (renderNodes bundle r types env [] rest)

end

end Rendering

namespace Bundle

open Rendering

variable [Language]

/-- Renders tags and blocks that nest at most so deep. -/
def runner (b : Bundle) : Nat → Runner
  | 0 => ⟨fun _ _ _ => none, fun _ _ _ => none⟩
  | n + 1 =>
      let r := b.runner n
      { tag := fun name args p =>
          match b.find? name with
          | some t => renderNodes b r t.types args [] t.body p
          | none => some p
        block := fun code env p => renderNodes b r code.types env [] code.nodes p }

/-! ## Binding parameters from a model -/

def defaultValue (param : Param) (p : Page) : Value NodeBlock × Page :=
  match param.default with
  | some e =>
      let (v, p) := valueOf [] [] e p
      (convert v (typeOf [] e) param.type, p)
  | none => (.nil, p)

/-- The value of a parameter: what the model has for it as the type asks, or its default. -/
def bindParam (model : Env NodeBlock) (param : Param) (p : Page) :
    Except RenderError (Value NodeBlock × Page) :=
  if param.required || (model.get? param.name).isSome then
    match param.type with
    | .text => (model.requiredText param.name).map fun s => (.text s, p)
    | .content => (model.requiredContent param.name).map fun v => (v, p)
    | _ => (model.required param.name).map fun v => (v, p)
  else
    let (v, p) := defaultValue param p
    .ok (if param.type == .text then .text v.toText else v, p)

def bindParams (model : Env NodeBlock) : List Param → Page → Except RenderError (Env NodeBlock × Page)
  | [], p => .ok ([], p)
  | param :: params, p => do
      let (v, p) ← bindParam model param p
      let (rest, p) ← bindParams model params p
      return ((param.name, v) :: rest, p)

def maxDepth : Nat := 10000

def body (b : Bundle) (depth : Nat) (t : LoadedTag) : TagBody NodeBlock := fun model p =>
  match bindParams model t.params p with
  | .error e => some (p, some e)
  | .ok (args, p) => ((b.runner depth).tag t.name args p).map fun p => (p, none)

/-- The tags as callers render them, nested at most so deep. -/
def registryWithin (b : Bundle) (depth : Nat) : TagRegistry NodeBlock :=
  ⟨b.tags.map fun t => ⟨t.name, t.params.map Param.formal, b.body depth t⟩, none⟩

def registry (b : Bundle) : TagRegistry NodeBlock := b.registryWithin maxDepth

end Bundle

/-! ## Loading -/

namespace Loading

/-- The expression itself unless it is a name in scope or a constant. -/
def evaluated (types : Types) (e : Expression) : List Expression :=
  if (e.isBare && (types.get? e.source).isSome) || e.literal?.isSome then [] else [e]

def inParts (types : Types) (parts : List Part) : List Expression :=
  parts.flatMap fun p => match p with
    | .interpolation _ e => evaluated types e
    | .literal _ _ => []

def firstOf (found : List (Bytes × List Expression)) (name : Bytes) : Option (List Expression) :=
  (found.find? (·.1 == name)).map (·.2)

mutual

def inNode (bundle : Bundle) (types : Types) : Node → List Expression
  | .literal _ _ => []
  | .interpolation _ e _ => evaluated types e
  | .invocation _ name args =>
      let found := inArgs bundle types args
      if Name.isBuiltin name then (firstOf found "value").getD []
      else (((bundle.find? name).map (·.params)).getD []).flatMap fun param =>
        match firstOf found param.name, param.default with
        | some es, _ => es
        | none, some e => evaluated [] e
        | none, none => []
  | .cond _ e body otherwise =>
      evaluated types e ++ inNodes bundle types body ++
        (match otherwise with
        | some nodes => inNodes bundle types nodes
        | none => [])
  | .loop _ e item index body =>
      evaluated types e ++ inNodes bundle (types.withLoop item index) body

def inNodes (bundle : Bundle) (types : Types) : List Node → List Expression
  | [] => []
  | n :: ns => inNode bundle types n ++ inNodes bundle types ns

def inArgs (bundle : Bundle) (types : Types) : List Arg → List (Bytes × List Expression)
  | [] => []
  | .text _ name parts :: as => (name, inParts types parts) :: inArgs bundle types as
  | .expr _ name e :: as => (name, evaluated types e) :: inArgs bundle types as
  | .content _ name body :: as => (name, inNodes bundle types body) :: inArgs bundle types as

end

/-- All expressions of a bundle in the order they are prepared: bodies first, then defaults. -/
def expressions (bundle : Bundle) : List Expression :=
  bundle.tags.flatMap (fun t => inNodes bundle t.types t.body) ++
    bundle.tags.flatMap fun t => t.params.flatMap fun p =>
      match p.default with
      | some e => evaluated [] e
      | none => []

end Loading

namespace Bundle

def flaw? [Language] (b : Bundle) : Option Bytes :=
  (Loading.expressions b).findSome? fun e => (Language.flaw? e).map fun reason =>
    "loading templates: taglet: compiling " ++ Bytes.quote e.source ++ ": " ++ reason

end Bundle

end TagLoom

import TagLoom.Bytes.Utf8
import TagLoom.Escape
import TagLoom.Expr.Source
import TagLoom.Template.Name

/-!
# Templates

The tree of a template file: the tags it defines and the nodes of their bodies.

## Source positions

Lines and columns count from one; columns count characters, an ill-formed byte being
one character.
-/

namespace TagLoom

structure Pos where
  line : Nat
  column : Nat
deriving DecidableEq, Inhabited

namespace Pos

def before (p q : Pos) : Bool := p.line < q.line || (p.line == q.line && p.column < q.column)

def toBytes (p : Pos) : Bytes := Bytes.ofNat p.line ++ ":" ++ Bytes.ofNat p.column

def start : Pos := ⟨1, 1⟩

def lastLine (s : Bytes) : Bytes :=
  (s.reverse.takeWhile (· != '\n'.toUInt8)).reverse

def ofOffset (source : Bytes) (offset : Nat) : Pos :=
  let before := source.take offset
  ⟨before.count '\n'.toUInt8 + 1, Utf8.count (lastLine before) + 1⟩

end Pos

/-! ## Nodes -/

inductive ParamType where
  | unknown
  | text
  | content
  | value
deriving DecidableEq, Inhabited

namespace ParamType

def label : ParamType → Bytes
  | .unknown => "unknown"
  | .text => "text"
  | .content => "content"
  | .value => "value"

def ofLabel? (s : Bytes) : Option ParamType :=
  [ParamType.text, .content, .value].find? (·.label == s)

end ParamType

inductive Part where
  | literal (pos : Pos) (text : Bytes)
  | interpolation (pos : Pos) (expr : Expression)
deriving Inhabited

mutual

inductive Node where
  /-- Text copied to the output. -/
  | literal (pos : Pos) (text : Bytes)
  /-- The value of an expression; how it is escaped is known once the HTML around it has been
  looked at. -/
  | interpolation (pos : Pos) (expr : Expression) (escape : Option Escape)
  /-- A call of a tag or of a built-in element. -/
  | invocation (pos : Pos) (name : Bytes) (args : List Arg)
  /-- A conditional; `none` when it has no else branch. -/
  | cond (pos : Pos) (test : Expression) (body : List Node) (otherwise : Option (List Node))
  /-- A loop; the index name is empty when there is none. -/
  | loop (pos : Pos) (each : Expression) (item index : Bytes) (body : List Node)

inductive Arg where
  /-- A quoted attribute: text with interpolations. -/
  | text (pos : Pos) (name : Bytes) (parts : List Part)
  /-- An attribute that is an expression. -/
  | expr (pos : Pos) (name : Bytes) (expr : Expression)
  /-- A block of nodes. -/
  | content (pos : Pos) (name : Bytes) (body : List Node)

end

instance : Inhabited Node := ⟨.literal .start []⟩

instance : Inhabited Arg := ⟨.content .start [] []⟩

namespace Part

def pos : Part → Pos
  | .literal p _ | .interpolation p _ => p

def toNode : Part → Node
  | .literal p s => .literal p s
  | .interpolation p e => .interpolation p e none

end Part

namespace Arg

def pos : Arg → Pos
  | .text p _ _ | .expr p _ _ | .content p _ _ => p

def name : Arg → Bytes
  | .text _ n _ | .expr _ n _ | .content _ n _ => n

def staticText? : Arg → Option Bytes
  | .text _ _ parts => parts.foldl (fun acc p =>
      match acc, p with
      | some s, .literal _ t => some (s ++ t)
      | _, _ => none) (some [])
  | _ => none

def implicitName : Bytes := "content"

def find? (args : List Arg) (name : Bytes) : Option Arg := args.find? (·.name == name)

end Arg

namespace Node

def pos : Node → Pos
  | .literal p _ | .interpolation p _ _ | .invocation p _ _ | .cond p _ _ _ | .loop p _ _ _ _ => p

def isBlankLiteral : Node → Bool
  | .literal _ s => Name.isBlank s
  | _ => false

mutual

/-- A node and everything inside it in document order.  A node is guarded when rendering it
is not unconditional: inside a conditional, a loop or a content argument. -/
@[grind =] def walkNode (guarded : Bool) : Node → List (Node × Bool)
  | .invocation p name args => (.invocation p name args, guarded) :: walkArgs guarded args
  | .cond p e body none => (.cond p e body none, guarded) :: walkNodes true body
  | .cond p e body (some other) =>
      (.cond p e body (some other), guarded) :: (walkNodes true body ++ walkNodes true other)
  | .loop p e item index body => (.loop p e item index body, guarded) :: walkNodes true body
  | .literal p s => [(.literal p s, guarded)]
  | .interpolation p e m => [(.interpolation p e m, guarded)]

@[grind =] def walkNodes (guarded : Bool) : List Node → List (Node × Bool)
  | [] => []
  | n :: ns => walkNode guarded n ++ walkNodes guarded ns

@[grind =] def walkArgs (guarded : Bool) : List Arg → List (Node × Bool)
  | [] => []
  | a :: as => walkArg guarded a ++ walkArgs guarded as

def walkArg (guarded : Bool) : Arg → List (Node × Bool)
  | .text _ _ parts => parts.map fun p => (p.toNode, guarded)
  | .expr _ _ _ => []
  | .content _ _ body => walkNodes true body

end

def walk (nodes : List Node) : List (Node × Bool) := walkNodes false nodes

def allBlank (nodes : List Node) : Bool := nodes.all isBlankLiteral

end Node

structure Declaration where
  pos : Pos
  name : Bytes
  type : ParamType
  default : Option Expression
deriving Inhabited

structure Definition where
  name : Bytes
  isRoot : Bool
  pos : Pos
  decls : List Declaration
  body : List Node
  file : Bytes
  template : Bytes
deriving Inhabited

/-- A parsed template file: its root tag, when it has one, and then its named tags. -/
structure Template where
  path : Bytes
  file : Bytes
  defs : List Definition
deriving Inhabited

end TagLoom

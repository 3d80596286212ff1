import TagLoom.Expr.Parser

/-!
# Expressions in templates

An expression as it stands in a template: its source without the blanks around it, its
tree, and what the later stages ask of it.
-/

namespace TagLoom

inductive Literal where
  | nil
  | bool (b : Bool)
  | int (n : Int)
  | float (f : Float)
  | text (s : Bytes)

structure Expression where
  source : Bytes
  tree : Expr
deriving Inhabited

namespace Expression

def ofSource (source : Bytes) : Except Expr.ParseError Expression :=
  (Expr.parse source).map fun tree => ⟨source, tree⟩

def parse (source : Bytes) : Except Expr.ParseError Expression := ofSource (Unicode.trim source)

def names (e : Expression) : List Bytes := e.tree.freeNames

def isBare (e : Expression) : Bool :=
  match e.tree with
  | .name _ _ => true
  | _ => false

def literal? (e : Expression) : Option Literal :=
  match e.tree with
  | .text _ s => some (.text s)
  | .int _ n => some (.int n)
  | .float _ f => some (.float f)
  | .bool _ b => some (.bool b)
  | .nil _ => some .nil
  | _ => none

def isText (e : Expression) : Bool := e.tree.isText

def yes : Expression := ⟨"true", .bool 0 true⟩

end Expression

end TagLoom

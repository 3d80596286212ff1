import TagLoom.Bytes

/-!
# Expressions

The tree of an expression inside a template.  Each node keeps the character offset
that an evaluation error points at.
-/

namespace TagLoom

inductive UnaryOp where
  | not
  | minus
  | plus
deriving DecidableEq, Repr

inductive BinaryOp where
  | or
  | and
  | equal
  | notEqual
  | less
  | greater
  | greaterEqual
  | lessEqual
  | isIn
  | isMatch
  | hasPart
  | hasStart
  | hasEnd
  | range
  | add
  | subtract
  | multiply
  | divide
  | modulo
  | power
  | coalesce
deriving DecidableEq, Repr

inductive Expr where
  | nil (pos : Nat)
  | bool (pos : Nat) (value : Bool)
  | int (pos : Nat) (value : Int)
  | float (pos : Nat) (value : Float)
  | text (pos : Nat) (value : Bytes)
  | name (pos : Nat) (name : Bytes)
  | unary (pos : Nat) (op : UnaryOp) (operand : Expr)
  | binary (pos : Nat) (op : BinaryOp) (left right : Expr)
  | chain (pos : Nat) (link : Expr)
  | member (pos : Nat) (object key : Expr) (optional : Bool)
  | slice (pos : Nat) (object : Expr) (low high : Option Expr)
  | call (pos : Nat) (callee : Expr) (args : List Expr)
  | builtin (pos : Nat) (name : Bytes) (args : List Expr)
  | predicate (pos : Nat) (body : Expr)
  | pointer (pos : Nat) (name : Bytes)
  | cond (pos : Nat) (test yes no : Expr)
  | binding (pos : Nat) (name : Bytes) (value body : Expr)
  | sequence (pos : Nat) (steps : List Expr)
  | array (pos : Nat) (items : List Expr)
  | record (pos : Nat) (entries : List (Expr × Expr))
deriving Inhabited

namespace Expr

def pos : Expr → Nat
  | .nil p | .bool p _ | .int p _ | .float p _ | .text p _ | .name p _ | .unary p _ _
  | .binary p _ _ _ | .chain p _ | .member p _ _ _ | .slice p _ _ _ | .call p _ _
  | .builtin p _ _ | .predicate p _ | .pointer p _ | .cond p _ _ _ | .binding p _ _ _
  | .sequence p _ | .array p _ | .record p _ => p

def isText : Expr → Bool
  | .text _ _ => true
  | _ => false

mutual

/-- The free names of an expression in source order, repetitions included.  Names that
start with a dollar sign belong to the language and are never free. -/
def occurrences (bound : List Bytes) : Expr → List Bytes
  | .nil _ | .bool _ _ | .int _ _ | .float _ _ | .text _ _ | .pointer _ _ => []
  | .name _ n => if bound.contains n || Bytes.startsWith n "$" then [] else [n]
  | .unary _ _ e | .chain _ e | .predicate _ e => occurrences bound e
  | .binary _ _ l r => occurrences bound l ++ occurrences bound r
  | .member _ e k _ => occurrences bound e ++ (if k.isText then [] else occurrences bound k)
  | .slice _ e low high =>
      occurrences bound e ++ occurrencesOpt bound low ++ occurrencesOpt bound high
  | .call _ callee args => occurrences bound callee ++ occurrencesList bound args
  | .builtin _ _ args => occurrencesList bound args
  | .cond _ c a b => occurrences bound c ++ occurrences bound a ++ occurrences bound b
  | .binding _ n v body => occurrences bound v ++ occurrences (n :: bound) body
  | .sequence _ es | .array _ es => occurrencesList bound es
  | .record _ entries => occurrencesEntries bound entries

def occurrencesOpt (bound : List Bytes) : Option Expr → List Bytes
  | none => []
  | some e => occurrences bound e

def occurrencesList (bound : List Bytes) : List Expr → List Bytes
  | [] => []
  | e :: es => occurrences bound e ++ occurrencesList bound es

def occurrencesEntries (bound : List Bytes) : List (Expr × Expr) → List Bytes
  | [] => []
  | (k, v) :: entries =>
      (if k.isText then [] else occurrences bound k) ++ occurrences bound v ++
        occurrencesEntries bound entries

end

def freeNames (e : Expr) : List Bytes := Bytes.dedup (occurrences [] e)

end Expr

end TagLoom

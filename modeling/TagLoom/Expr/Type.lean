import TagLoom.Bytes

/-!
# Types of expressions

What can be known of the value of an expression before the names in it have values.  A name may
hold anything, and nothing is known of it at all; an item of a plain list is known to be any value.
-/

namespace TagLoom

inductive StaticType where
  | unknown
  | nil
  | any
  | bool
  | int
  | float
  | text
  | list (item : StaticType)
  | texts
  | record
  | function (label : Bytes)
deriving Inhabited

namespace StaticType

def label : StaticType → Bytes
  | .unknown | .nil => "unknown"
  | .any => "interface \x7b\x7d"
  | .bool => "bool"
  | .int => "int"
  | .float => "float64"
  | .text => "string"
  | .list _ => "[]interface \x7b\x7d"
  | .texts => "[]string"
  | .record => "map[string]interface \x7b\x7d"
  | .function l => l

def isUnknown : StaticType → Bool
  | .unknown | .any => true
  | _ => false

def isNil : StaticType → Bool
  | .nil => true
  | _ => false

def isBool : StaticType → Bool
  | .bool => true
  | _ => false

def isInt : StaticType → Bool
  | .int => true
  | _ => false

def isFloat : StaticType → Bool
  | .float => true
  | _ => false

def isNumber (t : StaticType) : Bool := t.isInt || t.isFloat

def isText : StaticType → Bool
  | .text => true
  | _ => false

def isList : StaticType → Bool
  | .list _ | .texts => true
  | _ => false

def isRecord : StaticType → Bool
  | .record => true
  | _ => false

def item : StaticType → StaticType
  | .list t => t
  | .texts => .text
  | _ => .unknown

/-- A type without what is known of the items of a plain list; where nothing is known, any value
may stand. -/
def plain : StaticType → StaticType
  | .unknown | .nil => .any
  | .list _ => .list .any
  | t => t

/-- Types that differ only in what a collection holds are of the same sort. -/
def sort : StaticType → Nat
  | .unknown | .nil => 0
  | .any => 1
  | .bool => 2
  | .int => 3
  | .float => 4
  | .text => 5
  | .list _ | .texts => 6
  | .record => 7
  | .function _ => 8

def isComparable (a b : StaticType) : Bool :=
  a.sort == b.sort || (a.isNumber && b.isNumber) || a.isNil || b.isNil || a.isUnknown || b.isUnknown

def fits (a b : StaticType) : Bool :=
  match a, b with
  | .nil, .any | .nil, .list _ | .nil, .texts | .nil, .record | .nil, .function _ => true
  | .nil, _ | .unknown, _ | _, .unknown => false
  | _, .any => true
  | .list _, .list _ | .texts, .texts => true
  | .list _, .texts | .texts, .list _ => false
  | .function f, .function g => f == g
  | _, _ => a.sort == b.sort

/-- What is known of a value that is one of two types, where one of the first is one of the second:
two lists that hold different things are together a list of any values. -/
def eitherOf (a b : StaticType) : StaticType :=
  if a.isNil && !b.isNil then b
  else if !a.isNil && b.isNil then a
  else if a.isNil then .nil
  else if !a.fits b then .unknown
  else if a.isList && b.isList && !(a.item.fits b.item && b.item.fits a.item) then .list .any
  else a

def combined (a b : StaticType) : StaticType := if a.isFloat || b.isFloat then .float else .int

def oneUnknown (a b : StaticType) (accepts : StaticType → Bool) : Bool :=
  (a.isUnknown && (b.isUnknown || accepts b)) || (b.isUnknown && accepts a)

end StaticType

end TagLoom

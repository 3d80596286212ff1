import TagLoom.Bytes.Quoted
import TagLoom.Decimal.Notation
import TagLoom.Escape

/-!
# Values

What a model holds and an expression computes.  Besides plain data there are things that can be
rendered: pieces of markup the caller supplies, values to be shown as escaped text, and blocks,
which are template code `β` together with the values of the names it reads.
-/

namespace TagLoom

inductive IntKind where
  | int
  | int64
  | uint64
  | uint8
deriving DecidableEq

/-- What a list may hold: anything, texts only, or whole numbers only. -/
inductive ListKind where
  | values
  | texts
  | ints
deriving DecidableEq

/-- What a map may have as keys and values: whole numbers and anything, anything and anything, or
anything and lists. -/
inductive TableKind where
  | ints
  | values
  | groups
deriving DecidableEq

inductive Key where
  | nil
  | bool (b : Bool)
  | int (kind : IntKind) (n : Int)
  | float (f : Float)
  | text (s : Bytes)

/-- Whether two keys are one key of a map.  A float that is no number is not even the same as
itself, so a map has it as often as it was put there and never finds it. -/
def Key.same : Key → Key → Bool
  | .nil, .nil => true
  | .bool a, .bool b => a == b
  | .int k m, .int k' n => k == k' && m == n
  | .float a, .float b => a == b
  | .text s, .text t => s == t
  | _, _ => false

/-! ## Supplied markup -/

/-- The types of what a caller supplies to be rendered: content, a plain function, or a component
of another library. -/
inductive SupplyKind where
  | content
  | function
  | component
deriving DecidableEq

/-- An error of supplied markup: one of its own, one of the sink that it passes on, or a parameter
that it asks for and the model does not have. -/
inductive SupplyError where
  | own (message : Bytes)
  | ofSink (message : Bytes)
  | missing (name : Bytes)

/-- What supplied markup does when it is rendered.  After a write it knows whether the sink took it,
or why not; it may ask whether the request was given up. -/
inductive Supply where
  | done
  | fail (error : SupplyError)
  | write (text : Bytes) (next : Option Bytes → Supply)
  | ask (next : Bool → Supply)

def Supply.once (text : Bytes) : Supply :=
  .write text fun
    | none => .done
    | some message => .fail (.ofSink message)

/-! ## Values -/

inductive Value (β : Type) where
  | nil
  | bool (b : Bool)
  | int (kind : IntKind) (n : Int)
  | float (f : Float)
  | text (s : Bytes)
  | bytes (s : Bytes)
  | list (kind : ListKind) (items : List (Value β))
  /-- A list that was never made.  It is empty and counts as nothing. -/
  | unmade (kind : ListKind)
  | record (entries : List (Bytes × Value β))
  | table (kind : TableKind) (entries : List (Key × Value β))
  /-- Content that is none.  It has the type of content, so it is not `nil`. -/
  | noContent
  | supplied (kind : SupplyKind) (supply : Supply)
  /-- Content that shows a value as escaped text. -/
  | shown (value : Value β)
  | block (code : β) (env : List (Bytes × Value β))
deriving Inhabited

/-- Names with their values; the first entry of a name counts. -/
abbrev Env (β : Type) := List (Bytes × Value β)

namespace Env

variable {β : Type}

def get? (env : Env β) (name : Bytes) : Option (Value β) := (env.find? (·.1 == name)).map (·.2)

def get (env : Env β) (name : Bytes) : Value β := (env.get? name).getD .nil

end Env

/-! ## Types -/

def IntKind.label : IntKind → Bytes
  | .int => "int"
  | .int64 => "int64"
  | .uint64 => "uint64"
  | .uint8 => "uint8"

/-- Brings a whole number into the range of a width, as arithmetic on words does. -/
def IntKind.wrap : IntKind → Int → Int
  | .int, n | .int64, n => Int.bmod n 18446744073709551616
  | .uint64, n => n % 18446744073709551616
  | .uint8, n => n % 256

def ListKind.label : ListKind → Bytes
  | .values => "[]interface \x7b\x7d"
  | .texts => "[]string"
  | .ints => "[]int"

def TableKind.label : TableKind → Bytes
  | .ints => "map[int]interface \x7b\x7d"
  | .values => "map[interface \x7b\x7d]interface \x7b\x7d"
  | .groups => "map[interface \x7b\x7d][]interface \x7b\x7d"

def Key.toValue {β : Type} : Key → Value β
  | .nil => .nil
  | .bool b => .bool b
  | .int kind n => .int kind n
  | .float f => .float f
  | .text s => .text s

namespace Value

variable {β : Type}

def ofInt (n : Int) : Value β := .int .int n

def ofNat (n : Nat) : Value β := .int .int n

def typeName : Value β → Bytes
  | .nil => "<nil>"
  | .bool _ => "bool"
  | .int kind _ => kind.label
  | .float _ => "float64"
  | .text _ => "string"
  | .bytes _ => "[]uint8"
  | .list kind _ | .unmade kind => kind.label
  | .record _ => "map[string]interface \x7b\x7d"
  | .table kind _ => kind.label
  | .supplied .function _ => "func(*runtime.Context) error"
  | .supplied .component _ => "templ.ComponentFunc"
  | .noContent | .supplied _ _ | .shown _ | .block _ _ => "runtime.Content"

def dynamicName : Value β → Bytes
  | .nil => "nil"
  | v => v.typeName

def isNothing : Value β → Bool
  | .nil | .unmade _ | .noContent => true
  | _ => false

def isRenderable : Value β → Bool
  | .supplied _ _ | .shown _ | .block _ _ => true
  | _ => false

/-- Whether a value makes a condition hold: nothing, `false`, zero and what is empty do not, but
content does, even where there is none. -/
def isTruthy : Value β → Bool
  | .nil | .unmade _ => false
  | .bool b => b
  | .int _ n => n != 0
  | .float f => f != 0.0
  | .text s | .bytes s => !s.isEmpty
  | .list _ items => !items.isEmpty
  | .record entries => !entries.isEmpty
  | .table _ entries => !entries.isEmpty
  | .noContent | .supplied _ _ | .shown _ | .block _ _ => true

/-! ## Content -/

/-- A value as content: what can be rendered stays itself, nothing is no content, and plain
data is shown as escaped text. -/
def asContent : Value β → Value β
  | .nil | .noContent => .noContent
  | v => if v.isRenderable then v else .shown v

/-! ## Text -/

def text? : Value β → Option Bytes
  | .nil => some []
  | .bool b => some (if b then "true" else "false")
  | .int _ n => some (Bytes.ofInt n)
  | .float f => some (Decimal.writePositional f)
  | .text s | .bytes s => some s
  | _ => none

def toText (v : Value β) : Bytes := v.text?.getD []

/-! ## Keys -/

def key? : Value β → Option Key
  | .nil => some .nil
  | .bool b => some (.bool b)
  | .int kind n => some (.int kind n)
  | .float f => some (.float f)
  | .text s => some (.text s)
  | _ => none

/-! ## Entries of a collection -/

def counted (n : Nat) : List (Value β × Value β) :=
  (List.range n).map fun i => (.ofNat i, .ofNat i)

def indexed (items : List (Value β)) : List (Value β × Value β) :=
  items.zipIdx.map fun (v, i) => (.ofNat i, v)

def byKeyText (entries : List (Value β × Value β)) : List (Value β × Value β) :=
  entries.mergeSort fun a b => Bytes.le a.1.toText b.1.toText

/-- What a loop over a value goes through: the items of a list, the entries of a record in the
order of the texts of their keys, or the numbers below a number.  Other values cannot be looped
over. -/
def entries? : Value β → Option (List (Value β × Value β))
  | .nil | .unmade _ => some []
  | .list _ items => some (indexed items)
  | .bytes s => some (indexed (s.map fun c => .int .uint8 c.toNat))
  | .record entries => some (byKeyText (entries.map fun (k, v) => (.text k, v)))
  | .table _ entries => some (byKeyText (entries.map fun (k, v) => (k.toValue, v)))
  | .int .int n | .int .int64 n => some (counted n.toNat)
  | _ => none

def losesKey : Value β → Bool
  | .table _ entries => entries.any fun e => !e.1.same e.1
  | _ => false

end Value

end TagLoom

/-!
## Values in messages

Two written forms of values: the literal form, which names the types of collections, and the
plain form, which the expression language uses to turn any value into a text.
-/

namespace TagLoom

/-! ## Keys in order -/

namespace Key

def rank : Key → Nat
  | .nil => 0
  | .bool _ => 1
  | .int _ _ => 2
  | .float _ => 3
  | .text _ => 4

def le : Key → Key → Bool
  | .bool a, .bool b => !a || b
  | .int _ m, .int _ n => m ≤ n
  | .float a, .float b => !(b < a)
  | .text s, .text t => Bytes.le s t
  | a, b => a.rank ≤ b.rank

end Key

namespace Value

variable {β : Type}

def byName (entries : List (Bytes × Bytes)) : List (Bytes × Bytes) :=
  entries.mergeSort fun a b => Bytes.le a.1 b.1

def byKey (entries : List (Key × Bytes)) : List (Key × Bytes) :=
  entries.mergeSort fun a b => Key.le a.1 b.1

def separated (sep : String) (parts : List Bytes) : Bytes := Bytes.join sep parts

/-! ## Literal form -/

def anyNothing : Bytes := "interface \x7b\x7d(nil)"

def keyLiteral : Key → Bytes
  | .nil => anyNothing
  | .bool b => if b then "true" else "false"
  | .int .uint8 n | .int .uint64 n => "0x" ++ Bytes.hex 1 n.toNat
  | .int _ n => Bytes.ofInt n
  | .float f => Decimal.writeGeneral f
  | .text s => Bytes.quote s

mutual

@[grind =] def literal : Value β → Bytes
  | .nil => anyNothing
  | .bool b => if b then "true" else "false"
  | .int .uint8 n => "0x" ++ Bytes.hex 1 n.toNat
  | .int .uint64 n => "0x" ++ Bytes.hex 1 n.toNat
  | .int _ n => Bytes.ofInt n
  | .float f => Decimal.writeGeneral f
  | .text s => Bytes.quote s
  | .bytes s => "[]uint8\x7b" ++ separated ", " (s.map fun c => "0x" ++ Bytes.hex 1 c.toNat) ++ "\x7d"
  | .list kind items => kind.label ++ "\x7b" ++ separated ", " (literals items) ++ "\x7d"
  | .unmade kind => kind.label ++ "(nil)"
  | .record entries => "map[string]interface \x7b\x7d\x7b" ++
      separated ", " ((byName (namedLiterals entries)).map fun (k, v) => Bytes.quote k ++ ":" ++ v) ++
      "\x7d"
  | .table kind entries => kind.label ++ "\x7b" ++
      separated ", " ((byKey (keyedLiterals entries)).map fun (k, v) =>
        keyLiteral k ++ ":" ++ v) ++ "\x7d"
  | .noContent => "(runtime.Content)(nil)"
  | .supplied kind s => "(" ++ typeName (.supplied kind s : Value β) ++ ")"
  | .shown _ | .block _ _ => "(runtime.Content)"

def literals : List (Value β) → List Bytes
  | [] => []
  | v :: vs => literal v :: literals vs

def namedLiterals : List (Bytes × Value β) → List (Bytes × Bytes)
  | [] => []
  | (k, v) :: entries => (k, literal v) :: namedLiterals entries

def keyedLiterals : List (Key × Value β) → List (Key × Bytes)
  | [] => []
  | (k, v) :: entries => (k, literal v) :: keyedLiterals entries

end

/-! ## Plain form -/

def plainKey : Key → Bytes
  | .nil => "<nil>"
  | .bool b => if b then "true" else "false"
  | .int _ n => Bytes.ofInt n
  | .float f => Decimal.writeGeneral f
  | .text s => s

mutual

@[grind =] def plain : Value β → Bytes
  | .nil | .noContent => "<nil>"
  | .bool b => if b then "true" else "false"
  | .int _ n => Bytes.ofInt n
  | .float f => Decimal.writeGeneral f
  | .text s => s
  | .bytes s => "[" ++ separated " " (s.map fun c => Bytes.ofNat c.toNat) ++ "]"
  | .list _ items => "[" ++ separated " " (plains items) ++ "]"
  | .unmade _ => "[]"
  | .record entries => "map[" ++
      separated " " ((byName (namedPlains entries)).map fun (k, v) => k ++ ":" ++ v) ++ "]"
  | .table _ entries => "map[" ++
      separated " " ((byKey (keyedPlains entries)).map fun (k, v) => plainKey k ++ ":" ++ v) ++ "]"
  | .supplied kind s => typeName (.supplied kind s : Value β)
  | .shown _ | .block _ _ => "runtime.Content"

def plains : List (Value β) → List Bytes
  | [] => []
  | v :: vs => plain v :: plains vs

def namedPlains : List (Bytes × Value β) → List (Bytes × Bytes)
  | [] => []
  | (k, v) :: entries => (k, plain v) :: namedPlains entries

def keyedPlains : List (Key × Value β) → List (Key × Bytes)
  | [] => []
  | (k, v) :: entries => (k, plain v) :: keyedPlains entries

end

/-! ## Refusals -/

def castMessage (v : Value β) : Bytes :=
  "unable to cast " ++ v.literal ++ " of type " ++ v.typeName ++ " to string"

end Value

end TagLoom

import TagLoom.Value
import TagLoom.Decimal.Power

/-!
# Operations on values

What the operators of the expression language do with values, and how they refuse values they
are not made for.
-/

namespace TagLoom

inductive Refusal where
  | operands (op left right : Bytes)
  | operand (op type : Bytes)
  | conversion (found wanted : Bytes)
  | fetch (key type : Bytes)
  | outOfRange (index : Int) (length : Nat)
  | toInt (what : Bytes)
  | toFloat (what : Bytes)
  | membership (type : Bytes)
  | keyType (found wanted : Bytes)
  | argument (function type : Bytes)
  | slice (low : Bytes)
  | callOfNothing
  | callOfNoContent
  | callOfValue (type : Bytes)
  | callArguments (many : Bool)
  | callArgument (type : Bytes)
  | noLength (kind : Bytes)
  | noItems (kind : Bytes)
  | noMatch
  | divisionByZero
  | tooMuchMemory
  | pattern (message : Bytes)
  | unhashable (type : Bytes)
  | unavailable (function : Bytes)
deriving DecidableEq

def Refusal.message : Refusal → Bytes
  | .operands op l r => "invalid operation: " ++ l ++ " " ++ op ++ " " ++ r
  | .operand op t => "invalid operation: " ++ op ++ " " ++ t
  | .conversion found wanted => "interface conversion: interface \x7b\x7d is " ++ found ++ ", not " ++
      wanted
  | .fetch key t => "cannot fetch " ++ key ++ " from " ++ t
  | .outOfRange i n => "index out of range: " ++ Bytes.ofInt i ++ " (array length is " ++
      Bytes.ofNat n ++ ")"
  | .toInt s => "invalid operation: int(" ++ s ++ ")"
  | .toFloat s => "invalid operation: float(" ++ s ++ ")"
  | .membership t => "operator \"in\" not defined on " ++ t
  | .keyType found wanted => "reflect.Value.MapIndex: value of type " ++ found ++
      " is not assignable to type " ++ wanted
  | .argument f t => "invalid argument for " ++ f ++ " (type " ++ t ++ ")"
  | .slice low => "cannot slice " ++ low
  | .callOfNothing => "invalid operation: cannot call nil"
  | .callOfNoContent => "reflect.Value.Call: call of nil function"
  | .callOfValue t => "invalid operation: cannot call non-function of type " ++ t
  | .callArguments many => "reflect: Call with too " ++
      (if many then Bytes.ofString "many" else "few") ++ " input arguments"
  | .callArgument t => "reflect: Call using " ++ t ++ " as type *runtime.Context"
  | .noLength kind => "reflect: call of reflect.Value.Len on " ++ kind ++ " Value"
  | .noItems kind => "reflect: call of reflect.Value.Index on " ++ kind ++ " Value"
  | .noMatch => "reflect: slice index out of range"
  | .divisionByZero => "runtime error: integer divide by zero"
  | .tooMuchMemory => "memory budget exceeded"
  | .pattern m => m
  | .unhashable t => "runtime error: hash of unhashable type " ++ t
  | .unavailable f => "function " ++ f ++ " is not available"

namespace Value

variable {β : Type}

/-! ## Numbers -/

inductive Number where
  | int (n : Int)
  | float (f : Float)

def Number.toFloat : Number → Float
  | .int n => Float.ofInt n
  | .float f => f

def number? : Value β → Option Number
  | .int _ n => some (.int n)
  | .float f => some (.float f)
  | _ => none

def wrapInt (n : Int) : Int := IntKind.int.wrap n

/-- An operation on two numbers: on words when both are whole, on floats otherwise. -/
def arithmetic (op : String) (onInts : Int → Int → Int) (onFloats : Float → Float → Float)
    (a b : Value β) : Except Refusal (Value β) :=
  match a.number?, b.number? with
  | some (.int m), some (.int n) => .ok (.ofInt (wrapInt (onInts (wrapInt m) (wrapInt n))))
  | some x, some y => .ok (.float (onFloats x.toFloat y.toFloat))
  | _, _ => .error (.operands op a.typeName b.typeName)

def add (a b : Value β) : Except Refusal (Value β) :=
  match a, b with
  | .text s, .text t => .ok (.text (s ++ t))
  | _, _ => arithmetic "+" (· + ·) (· + ·) a b

def subtract (a b : Value β) : Except Refusal (Value β) := arithmetic "-" (· - ·) (· - ·) a b

def multiply (a b : Value β) : Except Refusal (Value β) := arithmetic "*" (· * ·) (· * ·) a b

def divide (a b : Value β) : Except Refusal (Value β) :=
  match a.number?, b.number? with
  | some x, some y => .ok (.float (x.toFloat / y.toFloat))
  | _, _ => .error (.operands "/" a.typeName b.typeName)

def modulo (a b : Value β) : Except Refusal (Value β) :=
  match a.number?, b.number? with
  | some (.int m), some (.int n) =>
      if wrapInt n == 0 then .error .divisionByZero
      else .ok (.ofInt (Int.tmod (wrapInt m) (wrapInt n)))
  | _, _ => .error (.operands "%" a.typeName b.typeName)

def asFloat (v : Value β) : Except Refusal Float :=
  match v.number? with
  | some x => .ok x.toFloat
  | none => .error (.toFloat v.typeName)

def power (a b : Value β) : Except Refusal (Value β) := do
  let x ← asFloat a
  let y ← asFloat b
  return .float (Decimal.power x y)

def negate : Value β → Except Refusal (Value β)
  | .int kind n => .ok (.int kind (kind.wrap (-n)))
  | .float f => .ok (.float (-f))
  | v => .error (.operand "-" v.typeName)

/-- A float without its fraction as a word; what does not fit is the least word. -/
def truncate (f : Float) : Int :=
  if -9223372036854775808.0 ≤ f && f < 9223372036854775808.0 then f.toInt64.toInt
  else -9223372036854775808

def asInt (v : Value β) : Except Refusal Int :=
  match v.number? with
  | some (.int n) => .ok (wrapInt n)
  | some (.float f) => .ok (truncate f)
  | none => .error (.toInt v.typeName)

/-! ## Order -/

def compareWith (op : String) (onInts : Int → Int → Bool) (onFloats : Float → Float → Bool)
    (onTexts : Bytes → Bytes → Bool) (a b : Value β) : Except Refusal Bool :=
  match a, b with
  | .text s, .text t => .ok (onTexts s t)
  | _, _ =>
      match a.number?, b.number? with
      | some (.int m), some (.int n) => .ok (onInts (wrapInt m) (wrapInt n))
      | some x, some y => .ok (onFloats x.toFloat y.toFloat)
      | _, _ => .error (.operands op a.typeName b.typeName)

def less (a b : Value β) : Except Refusal Bool :=
  compareWith "<" (· < ·) (· < ·) Bytes.lt a b

def lessEqual (a b : Value β) : Except Refusal Bool :=
  compareWith "<=" (· ≤ ·) (· ≤ ·) Bytes.le a b

def greater (a b : Value β) : Except Refusal Bool :=
  compareWith ">" (· > ·) (· > ·) (fun s t => Bytes.lt t s) a b

def greaterEqual (a b : Value β) : Except Refusal Bool :=
  compareWith ">=" (· ≥ ·) (· ≥ ·) (fun s t => Bytes.le t s) a b

/-! ## Equality -/

mutual

@[grind =] def identical : Value β → Value β → Bool
  | .nil, .nil => true
  | .bool a, .bool b => a == b
  | .int k m, .int k' n => k == k' && m == n
  | .float a, .float b => a == b
  | .text s, .text t => s == t
  | .bytes s, .bytes t => s == t
  | .list k xs, .list k' ys => k == k' && identicalItems xs ys
  | .unmade k, .unmade k' => k == k'
  | .record xs, .record ys => xs.length == ys.length && identicalEntries xs ys
  | .table k xs, .table k' ys => k == k' && xs.length == ys.length && identicalRows xs ys
  | .noContent, .noContent => true
  | _, _ => false

def identicalItems : List (Value β) → List (Value β) → Bool
  | [], [] => true
  | x :: xs, y :: ys => identical x y && identicalItems xs ys
  | _, _ => false

def identicalEntries : List (Bytes × Value β) → List (Bytes × Value β) → Bool
  | [], _ => true
  | (k, x) :: xs, ys =>
      (match ys.find? (·.1 == k) with
      | some (_, y) => identical x y
      | none => false) && identicalEntries xs ys

def identicalRows : List (Key × Value β) → List (Key × Value β) → Bool
  | [], _ => true
  | (k, x) :: xs, ys =>
      (match ys.find? (·.1.same k) with
      | some (_, y) => identical x y
      | none => false) && identicalRows xs ys

end

def items? : Value β → Option (List (Value β))
  | .list _ items => some items
  | .unmade _ => some []
  | .bytes s => some (s.map fun c => .int .uint8 c.toNat)
  | _ => none

/-- Whether items of two lists may be compared one by one: when the lists hold the same, or one
may hold anything. -/
def listsCompare (a b : Value β) : Bool :=
  a.typeName == b.typeName || a.typeName == ListKind.values.label ||
    b.typeName == ListKind.values.label

/-- Equality of numbers, texts and other plain values; lists are not looked into. -/
def scalarEqual (a b : Value β) : Bool :=
  match a, b with
  | .text s, .text t => s == t
  | .bool x, .bool y => x == y
  | _, _ =>
      match a.number?, b.number? with
      | some (.int m), some (.int n) => wrapInt m == wrapInt n
      | some x, some y => x.toFloat == y.toFloat
      | _, _ => (a.isNothing && b.isNothing) || identical a b

mutual

/-- The equality of the expression language: numbers by value whatever their width, lists item
by item, and other values by type and content. -/
def equal : Value β → Value β → Bool
  | .list k xs, b =>
      match b.items? with
      | some ys => if listsCompare (.list k xs) b then equalItems xs ys else false
      | none => false
  | a, b =>
      match a.items?, b.items? with
      | some xs, some ys =>
          if (a.isNothing && b.isNothing) || !listsCompare a b then a.isNothing && b.isNothing
          else xs.length == ys.length && (xs.zip ys).all fun (x, y) => scalarEqual x y
      | _, _ => scalarEqual a b

def equalItems : List (Value β) → List (Value β) → Bool
  | [], [] => true
  | x :: xs, y :: ys => equal x y && equalItems xs ys
  | _, _ => false

end

/-! ## Members and parts -/

def position (index : Int) (length : Nat) : Int :=
  if index < 0 then length + index else index

def itemAt {α : Type} (items : List α) (index : Int) : Except Refusal α :=
  let i := position index items.length
  match (if i < 0 then none else items[i.toNat]?) with
  | some v => .ok v
  | none => .error (.outOfRange i items.length)

/-- The key that a value is for a map; nothing is the zero of whole numbers. -/
def keyIn (kind : TableKind) (v : Value β) : Except Refusal Key :=
  match kind with
  | .ints =>
      match v with
      | .int .int n => .ok (.int .int n)
      | .nil => .ok (.int .int 0)
      | _ => .error (.keyType v.typeName "int")
  | .values | .groups =>
      match v.key? with
      | some k => .ok k
      | none => .error (.unhashable v.typeName)

def absent : TableKind → Value β
  | .ints | .values => .nil
  | .groups => .unmade .values

def fetch (v key : Value β) : Except Refusal (Value β) :=
  match v with
  | .list _ items => do itemAt items (← key.asInt)
  | .unmade _ => do itemAt [] (← key.asInt)
  | .text s | .bytes s => do return .int .uint8 (← itemAt s (← key.asInt)).toNat
  | .record entries =>
      match key with
      | .text k => .ok (Env.get entries k)
      | .nil => .ok (Env.get entries [])
      | _ => .error (.keyType key.typeName "string")
  | .table kind entries => do
      let k ← key.keyIn kind
      return ((entries.find? (·.1.same k)).map (·.2)).getD (absent kind)
  | _ => .error (.fetch key.plain v.typeName)

def isIn (needle v : Value β) : Except Refusal Bool :=
  match v with
  | .nil => .ok false
  | .record entries =>
      match needle with
      | .text k => .ok (entries.any (·.1 == k))
      | .nil => .ok (entries.any fun e => e.1.isEmpty)
      | _ => .error (.keyType needle.typeName "string")
  | .table kind entries => do
      let k ← needle.keyIn kind
      return entries.any (·.1.same k)
  | _ =>
      match v.items? with
      | some items => .ok (items.any fun item => equal item needle)
      | none => .error (.membership v.typeName)

def length? : Value β → Option Nat
  | .list _ items => some items.length
  | .unmade _ => some 0
  | .text s | .bytes s => some s.length
  | .record entries => some entries.length
  | .table _ entries => some entries.length
  | _ => none

def part {α : Type} (items : List α) (low high : Int) : List α :=
  let n : Int := items.length
  let low := max 0 (if low < 0 then n + low else low)
  let high := min n (max 0 (if high < 0 then n + high else high))
  let low := min low high
  (items.take high.toNat).drop low.toNat

/-- The part of a value between two bounds.  What has no parts is refused by its lower bound. -/
def slice (v : Value β) (low high : Value β) : Except Refusal (Value β) :=
  match v with
  | .list kind items => do return .list kind (part items (← low.asInt) (← high.asInt))
  | .unmade kind => do
      let _ ← low.asInt
      let _ ← high.asInt
      return .unmade kind
  | .text s => do return .text (part s (← low.asInt) (← high.asInt))
  | .bytes s => do return .bytes (part s (← low.asInt) (← high.asInt))
  | _ => .error (.slice low.plain)

/-- The first of the whole numbers between two bounds, both included, and how many they are; a
count too large for a word counts as none. -/
def rangeOf (low high : Value β) : Except Refusal (Int × Nat) := do
  let a ← low.asInt
  let b ← high.asInt
  return (a, (wrapInt (b - a + 1)).toNat)

def consecutive (first : Int) (count : Nat) : Value β :=
  .list .ints ((List.range count).map fun (i : Nat) => .ofInt (first + i))

def asBool : Value β → Except Refusal Bool
  | .bool b => .ok b
  | v => .error (.conversion v.dynamicName "bool")

def asText : Value β → Except Refusal Bytes
  | .text s => .ok s
  | v => .error (.conversion v.dynamicName "string")

def asWord : Value β → Except Refusal Int
  | .int .int n => .ok n
  | v => .error (.conversion v.dynamicName "int")

def asSubject : Value β → Except Refusal Bytes
  | .text s | .bytes s => .ok s
  | v => .error (.conversion v.dynamicName "[]uint8")

/-! ## Iteration -/

def kindName : Value β → Bytes
  | .nil => "zero"
  | .list _ _ | .unmade _ | .bytes _ => "slice"
  | .record _ | .table _ _ => "map"
  | .noContent | .supplied _ _ | .shown _ | .block _ _ => "func"
  | v => v.typeName

/-- What a predicate goes through.  Records have entries to go through but no items to look at. -/
def iterated (v : Value β) : Except Refusal (List (Except Refusal (Value β))) :=
  match v with
  | .text s => .ok (s.map fun c => .ok (.int .uint8 c.toNat))
  | _ =>
      match v.items?, v.length? with
      | some items, _ => .ok (items.map .ok)
      | none, some n => .ok (List.replicate n (.error (.noItems v.kindName)))
      | none, none => .error (.noLength v.kindName)

end Value

end TagLoom

import TagLoom.Value.Arithmetic
import TagLoom.Unicode.Case
import TagLoom.Unicode.Space
import TagLoom.Decimal.Read

/-!
# Functions of the expression language

The functions that take values only.  Those that take a predicate belong to the evaluator.

Left out are the functions of numbers `ceil`, `floor`, `round`, `mean` and `median`; of texts
`splitAfter`, `repeat`, `indexOf`, `lastIndexOf`, `toJSON`, `fromJSON`, `toBase64` and `fromBase64`;
of times `now`, `duration`, `date` and `timezone`; of collections `get`, `take`, `keys`, `values`,
`toPairs`, `fromPairs`, `reverse`, `uniq`, `concat`, `flatten` and `sort`; of bits `bitand`, `bitor`,
`bitxor`, `bitnand`, `bitnot`, `bitshl`, `bitshr` and `bitushr`; and `type`.  A call of one of them is
refused as unavailable.  `Language` says what the rest of the library asks of an evaluator.
-/

namespace TagLoom.Expr.Function

variable {β : Type}

def length : Value β → Except Refusal (Value β)
  | .text s => .ok (.ofNat (Utf8.count s))
  | v =>
      match v.length? with
      | some n => .ok (.ofNat n)
      | none => .error (.argument "len" v.typeName)

def absolute : Value β → Except Refusal (Value β)
  | .int kind n => .ok (.int kind (if n < 0 then kind.wrap (-n) else n))
  | .float f => .ok (.float (if f < 0.0 then -f else f))
  | v => .error (.argument "abs" v.typeName)

def toInt : Value β → Except Refusal (Value β)
  | .text s =>
      match Decimal.readInt 10 s with
      | .ok n => .ok (.ofInt n)
      | .error _ => .error (.toInt s)
  | v => do return .ofInt (← v.asInt)

def toFloat : Value β → Except Refusal (Value β)
  | .text s =>
      match Decimal.readFloat s with
      | .ok f => .ok (.float f)
      | .error _ => .error (.toFloat s)
  | v => do return .float (← v.asFloat)

def trimSet (s set : Bytes) : Bytes :=
  let members := Utf8.runes set
  let drop (cells : List Utf8.Cell) : List Utf8.Cell := cells.dropWhile fun c => members.contains c.rune
  ((drop (drop (Utf8.cells s)).reverse).reverse.map (·.spelled)).flatten

/-- The parts between separators; an empty separator cuts after each character. -/
def splitText (s sep : Bytes) : List Bytes :=
  if sep.isEmpty then (Utf8.cells s).map (·.spelled) else Bytes.splitOn s sep

/-- The first parts between separators, the last one holding the rest; a negative count cuts
everywhere. -/
def splitCount (s sep : Bytes) (n : Int) : List Bytes :=
  let parts := splitText s sep
  if n < 0 then parts
  else
    let n := n.toNat
    if parts.length ≤ n then parts
    else if n == 0 then []
    else parts.take (n - 1) ++ [Bytes.join sep (parts.drop (n - 1))]

def replaceCount (s old new : Bytes) (n : Int) : Bytes :=
  if n == 0 || old == new then s
  else if old.isEmpty then
    let pieces := (Utf8.cells s).map (·.spelled)
    let places := if n < 0 then pieces.length + 1 else n.toNat
    let body := pieces.zipIdx.flatMap fun (p, i) => Bytes.when (i < places) new ++ p
    body ++ Bytes.when (pieces.length < places) new
  else
    let parts := Bytes.splitOn s old
    if n < 0 || parts.length ≤ n.toNat then Bytes.join new parts
    else
      let n := n.toNat
      Bytes.join new (parts.take n ++ [Bytes.join old (parts.drop n)])

def textList (parts : List Bytes) : Value β := .list .texts (parts.map .text)

/-- The parts of a text up to a count; asked for none, no list is made. -/
def partList (s sep : Bytes) (n : Int) : Value β :=
  if n == 0 then .unmade .texts else textList (splitCount s sep n)

def splitUpTo (v sep n : Value β) : Except Refusal (Value β) := do
  return partList (← v.asText) (← sep.asText) (← n.asInt)

def replaceAll (v old new : Value β) : Except Refusal (Value β) := do
  return .text (replaceCount (← v.asText) (← old.asText) (← new.asText) (-1))

def replaceUpTo (v old new n : Value β) : Except Refusal (Value β) := do
  return .text (replaceCount (← v.asText) (← old.asText) (← new.asText) (← n.asInt))

def joinTexts (v : Value β) (glue : Bytes) : Except Refusal (Value β) :=
  match v with
  | .nil => .error (.argument "join" "%!s(<nil>)")
  | .list .ints _ | .unmade .ints => .error (.argument "join" v.typeName)
  | .list _ items => do return .text (Bytes.join glue (← items.mapM (·.asText)))
  | .unmade _ => .ok (.text [])
  | _ => .error (.argument "join" v.typeName)

def isNumber : Value β → Bool
  | .int _ _ | .float _ => true
  | _ => false

def better (replaces : Value β → Value β → Except Refusal Bool) (best v : Value β) :
    Except Refusal (Value β) :=
  match best with
  | .nil => .ok v
  | _ => do return if ← replaces best v then v else best

mutual

/-- The extreme of one candidate: of a list, that of the numbers in it.  Alone, any other value is
its own extreme. -/
def extremeOf (name : Bytes) (replaces : Value β → Value β → Except Refusal Bool)
    (alone : Bool) : Value β → Except Refusal (Value β)
  | .list _ items => extremeOfItems name replaces .nil items
  | .bytes s =>
      s.foldlM (fun best c => better replaces best (.int .uint8 c.toNat)) .nil
  | .unmade _ => .ok .nil
  | .int kind n => .ok (.int kind n)
  | .float f => .ok (.float f)
  | v => if alone then .ok v else .error (.argument name v.typeName)

def extremeOfItems (name : Bytes) (replaces : Value β → Value β → Except Refusal Bool)
    (best : Value β) : List (Value β) → Except Refusal (Value β)
  | [] => .ok best
  | v :: vs => do
      let candidate ← extremeOf name replaces true v
      if !isNumber candidate then throw (.argument name candidate.typeName)
      extremeOfItems name replaces (← better replaces best candidate) vs

end

/-- The extreme of some arguments; of lists without numbers there is none. -/
def extreme (name : Bytes) (replaces : Value β → Value β → Except Refusal Bool)
    (args : List (Value β)) : Except Refusal (Value β) :=
  args.foldlM (fun best v => do
    match ← extremeOf name replaces (args.length == 1) v with
    | .nil => return best
    | candidate => better replaces best candidate) .nil

def itemOrNil (v : Value β) (index : Int) : Value β :=
  match v.fetch (.ofInt index) with
  | .ok item => item
  | .error _ => .nil

/-! ## Calls -/

/-- A way to call a function: with so many arguments, or with any number of them. -/
inductive Form (β : Type) where
  | one (run : Value β → Except Refusal (Value β))
  | two (run : Value β → Value β → Except Refusal (Value β))
  | three (run : Value β → Value β → Value β → Except Refusal (Value β))
  | four (run : Value β → Value β → Value β → Value β → Except Refusal (Value β))
  | any (run : List (Value β) → Except Refusal (Value β))

namespace Form

def onText (g : Bytes → Value β) : Form β := .one fun v => do return g (← v.asText)

def onTexts (g : Bytes → Bytes → Value β) : Form β :=
  .two fun v w => do return g (← v.asText) (← w.asText)

/-- What a function gives for some arguments, if it can be called with so many. -/
def call? : Form β → List (Value β) → Option (Except Refusal (Value β))
  | .one run, [v] => some (run v)
  | .two run, [v, w] => some (run v w)
  | .three run, [u, v, w] => some (run u v w)
  | .four run, [t, u, v, w] => some (run t u v w)
  | .any run, args => some (run args)
  | _, _ => none

end Form

/-- The functions that take values only, with the ways to call them. -/
def table : List (String × Form β) := [
  ("len", .one length),
  ("abs", .one absolute),
  ("int", .one toInt),
  ("float", .one toFloat),
  ("string", .one fun v => .ok (.text v.plain)),
  ("upper", .onText fun s => .text (Unicode.upperText s)),
  ("lower", .onText fun s => .text (Unicode.lowerText s)),
  ("trim", .onText fun s => .text (Unicode.trim s)),
  ("trim", .onTexts fun s set => .text (trimSet s set)),
  ("trimPrefix", .onTexts fun s start => .text (Bytes.trimStart s start)),
  ("trimSuffix", .onTexts fun s tail => .text (Bytes.trimEnding s tail)),
  ("hasPrefix", .onTexts fun s start => .bool (Bytes.startsWith s start)),
  ("hasSuffix", .onTexts fun s tail => .bool (Bytes.endsWith s tail)),
  ("split", .onTexts fun s sep => textList (splitText s sep)),
  ("split", .three splitUpTo),
  ("replace", .three replaceAll),
  ("replace", .four replaceUpTo),
  ("join", .one fun v => joinTexts v []),
  ("join", .two fun v glue => do joinTexts v (← glue.asText)),
  ("max", .any (extreme "max" Value.less)),
  ("min", .any (extreme "min" Value.greater)),
  ("first", .one fun v => .ok (itemOrNil v 0)),
  ("last", .one fun v => .ok (itemOrNil v (-1)))]

def apply (name : Bytes) (args : List (Value β)) : Except Refusal (Value β) :=
  match table.findSome? fun (n, form) =>
    if Bytes.ofString n == name then form.call? args else none with
  | some result => result
  | none => .error (.unavailable name)

end TagLoom.Expr.Function

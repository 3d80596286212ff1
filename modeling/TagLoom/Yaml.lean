import TagLoom.Version.Timestamp

/-!
# YAML values

A document as a tree of scalars, sequences and mappings.  A scalar keeps its text and whether it was
written plain: what a plain text stands for is settled where it is used.
-/

namespace TagLoom

inductive Yaml where
  | scalar (plain : Bool) (text : Bytes)
  | sequence (items : List Yaml)
  | mapping (members : List (Yaml × Yaml))
deriving Inhabited, BEq

inductive YamlAtom where
  | null
  | bool (b : Bool)
  | int (n : Int)
  | float (f : Float)
  | time
  | text
deriving Inhabited

namespace YamlAtom

def tag : YamlAtom → Bytes
  | .null => "null"
  | .bool _ => "bool"
  | .int _ => "int"
  | .float _ => "float"
  | .time => "timestamp"
  | .text => "str"

def isText : YamlAtom → Bool
  | .text => true
  | _ => false

def isWord (words : List String) (s : Bytes) : Bool := words.any fun w => Bytes.ofString w == s

def ofWord? (s : Bytes) : Option YamlAtom :=
  if isWord ["", "~", "null", "Null", "NULL"] s then some .null
  else if isWord ["true", "True", "TRUE"] s then some (.bool true)
  else if isWord ["false", "False", "FALSE"] s then some (.bool false)
  else if isWord [".nan", ".NaN", ".NAN"] s then some (.float (0.0 / 0.0))
  else if isWord [".inf", ".Inf", ".INF", "+.inf", "+.Inf", "+.INF"] s then some (.float (1.0 / 0.0))
  else if isWord ["-.inf", "-.Inf", "-.INF"] s then some (.float (-1.0 / 0.0))
  else none

/-- The integer a text spells, in the base its start announces.  It fits 64 bits, with a sign or
without. -/
def int? (s : Bytes) : Option Int :=
  match Decimal.readPrefixedInt s with
  | .ok n => some n
  | .error _ =>
      let (base, digits) := Decimal.cutBase s
      (Decimal.readNat? base digits).bind fun n => if n ≤ Decimal.maxUnsigned then some n else none

def decimal? (s : Bytes) : Option Float := do
  let first ← (Decimal.cutSign s).2.head?
  if !Bytes.isDigit first && first != '.'.toUInt8 then none
  let (negative, digits) := Decimal.cutSign s
  let f ← Decimal.readDecimal? digits
  if Decimal.isInfinite f then none else some (if negative then -f else f)

/-- The number a text spells; underscores between digits do not count. -/
def number? (s : Bytes) : Option YamlAtom :=
  let solid := s.filter (· != '_'.toUInt8)
  match int? solid with
  | some n => some (.int n)
  | none => (decimal? solid).map .float

def ofPlain (s : Bytes) : YamlAtom :=
  match ofWord? s with
  | some a => a
  | none =>
      match s with
      | [] => .null
      | c :: _ =>
          if c == '.'.toUInt8 then ((decimal? s).map .float).getD .text
          else if Bytes.isDigit c || Decimal.isSign c then
            if Timestamp.isLoose s then .time else (number? s).getD .text
          else .text

end YamlAtom

namespace Yaml

def empty : Yaml := .scalar true []

def atom (plain : Bool) (text : Bytes) : YamlAtom := if plain then .ofPlain text else .text

def isNull : Yaml → Bool
  | .scalar plain text => match atom plain text with
    | .null => true
    | _ => false
  | _ => false

/-- Whether two keys of one mapping are the same: scalars of one text are, and so are any two
sequences and any two mappings. -/
def sameKey : Yaml → Yaml → Bool
  | .scalar _ a, .scalar _ b => a == b
  | .sequence _, .sequence _ | .mapping _, .mapping _ => true
  | _, _ => false

def distinctKeys : List (Yaml × Yaml) → Bool
  | [] => true
  | (k, _) :: rest => !rest.any (fun m => sameKey k m.1) && distinctKeys rest

end Yaml

end TagLoom

/-!
## Values out of YAML

Readers for the parts of a document whose shape is known.  A reader answers nothing when a value is
of the wrong kind, and an empty option when the value is null: such a value is left out.
-/

namespace TagLoom.Yaml

abbrev Decoder (α : Type) := Yaml → Option (Option α)

def unlessNull {α : Type} (read : Yaml → Option α) : Decoder α := fun v =>
  if v.isNull then some none else (read v).map some

def asText : Decoder Bytes := unlessNull fun
  | .scalar _ s => some s
  | _ => none

/-- A whole number; a float is cut off after its point. -/
def asInt : Decoder Int := unlessNull fun
  | .scalar plain s => match atom plain s with
    | .int n => if n ≤ Decimal.maxInt then some n else none
    | .float f => if f ≤ 9223372036854775807.0 then some f.toInt64.toInt else none
    | _ => none
  | _ => none

def yesWords : List Bytes := ["y", "Y", "yes", "on"]

def noWords : List Bytes := ["n", "N", "no", "off"]

/-- A truth value; some older words for it are known as well. -/
def asBool : Decoder Bool := unlessNull fun
  | .scalar plain s => match atom plain s with
    | .bool b => some b
    | .text => if yesWords.contains s then some true else if noWords.contains s then some false else none
    | _ => none
  | _ => none

def asList {α : Type} (item : Decoder α) : Decoder (List α) := unlessNull fun
  | .sequence vs => (vs.mapM item).map fun xs => xs.filterMap id
  | _ => none

/-- The members of a mapping with scalars as keys, none of them twice. -/
def asMembers : Decoder (List (Yaml × Yaml)) := unlessNull fun
  | .mapping ms =>
      let isScalar (m : Yaml × Yaml) : Bool := match m.1 with
        | .scalar _ _ => true
        | _ => false
      if distinctKeys ms && ms.all isScalar then some ms else none
  | _ => none

def member? (ms : List (Yaml × Yaml)) (name : Bytes) : Option Yaml :=
  (ms.find? fun (k, _) => match k with
    | .scalar _ s => s == name
    | _ => false).map (·.2)

def fieldOr {α : Type} (ms : List (Yaml × Yaml)) (name : Bytes) (read : Decoder α) (fallback : α) :
    Option α :=
  match member? ms name with
  | none => some fallback
  | some v => (read v).map (·.getD fallback)

end TagLoom.Yaml

import TagLoom.Json.Print
import TagLoom.Bytes.Base64
import TagLoom.Value
import TagLoom.Unicode.Space
import TagLoom.Unicode.Case
import TagLoom.Unicode.Printable

/-!
# Logging

Records with a level, a message and fields, on one line each.  A line is a list of `key=value` pairs,
or a JSON object.
-/

namespace TagLoom

inductive LogLevel where
  | debug
  | info
  | warn
  | error
deriving DecidableEq, Inhabited

namespace LogLevel

def label : LogLevel → Bytes
  | .debug => "DEBUG"
  | .info => "INFO"
  | .warn => "WARN"
  | .error => "ERROR"

def rank : LogLevel → Nat
  | .debug => 0
  | .info => 1
  | .warn => 2
  | .error => 3

def ofName (name : Bytes) : LogLevel :=
  let word := Unicode.lowerText (Unicode.trim name)
  if word == Bytes.ofString "debug" then .debug
  else if word == Bytes.ofString "warn" || word == Bytes.ofString "warning" then .warn
  else if word == Bytes.ofString "error" then .error
  else .info

end LogLevel

abbrev LogValue := Value Empty

structure LogRecord where
  level : LogLevel
  message : Bytes
  attributes : List (Bytes × LogValue)

namespace LogRecord

/-! ## Lines of pairs -/

def needsQuotes (r : Nat) : Bool :=
  if r < 0x80 then r != 0x5C && (r ≤ 0x20 || r == '='.toNat || r == '"'.toNat)
  else r == Utf8.replacement || Unicode.isSpace r || !Unicode.isPrintable r

/-- A text, in quotes where that is needed to tell where it ends. -/
def word (s : Bytes) : Bytes :=
  if s.isEmpty || (Utf8.runes s).any needsQuotes then Bytes.quote s else s

def valueText : LogValue → Bytes
  | .text s => word s
  | .bytes s => Bytes.quote s
  | .int _ n => Bytes.ofInt n
  | .float f => Decimal.writeGeneral f
  | .bool b => if b then "true" else "false"
  | v => word v.plain

def pair (a : Bytes × LogValue) : Bytes := word a.1 ++ "=" ++ valueText a.2

/-! ## Lines of JSON -/

/-- Positional notation except for very large and very small magnitudes. -/
def jsonNotation (d : Decimal) : Bytes :=
  let exponent := d.point - 1
  if d.digits.isEmpty || (-6 ≤ exponent && exponent < 21) then Decimal.positional d
  else Bytes.replaceAll (Decimal.scientific d) "e-0" "e-"

def nestedStyle : Json.PrintStyle := ⟨false, true⟩

def lineStyle : Json.PrintStyle := ⟨false, false⟩

mutual

def toJson : LogValue → Json
  | .nil | .unmade _ => .null
  | .bool b => .bool b
  | .int _ n => .number (Bytes.ofInt n)
  | .float f => .number (Decimal.writeWith jsonNotation f)
  | .text s => .string s
  | .bytes s => .string (Base64.encode s)
  | .list _ items => .array (toJsonList items)
  | .record entries => .object ((toJsonRecord entries).mergeSort fun a b => Bytes.le a.1 b.1)
  | .table _ entries => .object ((toJsonTable entries).mergeSort fun a b => Bytes.le a.1 b.1)
  | .noContent | .supplied _ _ | .shown _ | .block _ _ => .null

def toJsonList : List LogValue → List Json
  | [] => []
  | v :: vs => toJson v :: toJsonList vs

def toJsonRecord : List (Bytes × LogValue) → List (Bytes × Json)
  | [] => []
  | (k, v) :: entries => (k, toJson v) :: toJsonRecord entries

def toJsonTable : List (Key × LogValue) → List (Bytes × Json)
  | [] => []
  | (k, v) :: entries => ((k.toValue : LogValue).toText, toJson v) :: toJsonTable entries

end

def isUnsupported (f : Float) : Bool :=
  match Binary.ofFloat f with
  | .finite _ _ _ => false
  | _ => true

def jsonValue : LogValue → Bytes
  | .text s => Json.printString lineStyle s
  | .float f =>
      if isUnsupported f then
        Json.printString lineStyle ("!ERROR:json: unsupported value: " ++ Decimal.writeGeneral f)
      else (toJson (.float f)).compact nestedStyle
  | v => (toJson v).compact nestedStyle

def member (a : Bytes × LogValue) : Bytes :=
  "," ++ Json.printString lineStyle a.1 ++ ":" ++ jsonValue a.2

/-! ## Records -/

/-- The fields that are written: one without a name and without a value is not. -/
def shown (r : LogRecord) : List (Bytes × LogValue) :=
  r.attributes.filter fun (k, v) => !(k.isEmpty && match v with
    | .nil => true
    | _ => false)

def line (r : LogRecord) (json : Bool) : Bytes :=
  if json then
    "\x7b\"level\":\"" ++ r.level.label ++ "\",\"msg\":" ++ Json.printString lineStyle r.message ++
      r.shown.flatMap member ++ "\x7d\n"
  else
    Bytes.join " " (("level=" ++ r.level.label) :: ("msg=" ++ word r.message) :: r.shown.map pair) ++ "\n"

end LogRecord

/-- A logger: the least level it writes, the component it speaks for, and fields for all its
records. -/
structure Logger where
  json : Bool
  /-- Nothing is written below this level; without one nothing is written at all. -/
  level : Option LogLevel
  component : Bytes
  fields : List LogValue

namespace Logger

def silent : Logger := ⟨false, none, [], []⟩

/-- Fields come as names with values; a name that is no text is left out with its value, and so is a
name at the end. -/
def pairs : List LogValue → List (Bytes × LogValue)
  | .text k :: v :: rest => (k, v) :: pairs rest
  | _ :: _ :: rest => pairs rest
  | _ => []

def withFields (l : Logger) (fields : List LogValue) : Logger := { l with fields := l.fields ++ fields }

def withComponent (l : Logger) (component : Bytes) : Logger := { l with component }

def textField (name : Bytes) (text : Option Bytes) : List (Bytes × LogValue) :=
  match text with
  | some s => [(name, .text s)]
  | none => []

/-- What logging writes: the component, the error and the fields come in this order. -/
def log (l : Logger) (level : LogLevel) (error : Option Bytes) (message : Bytes)
    (fields : List LogValue) : Bytes :=
  match l.level with
  | none => []
  | some least =>
      if level.rank < least.rank then []
      else
        let record : LogRecord :=
          ⟨level, message,
            textField "component" (if l.component.isEmpty then none else some l.component) ++
              textField "error" error ++ pairs l.fields ++ pairs fields⟩
        record.line l.json

/-- What the end of an operation writes; how long it took is left out of account. -/
def endOperation (l : Logger) (name : Bytes) (error : Option Bytes) (fields : List LogValue) : Bytes :=
  let l := l.withFields [.text "operation", .text name]
  let fields := fields ++ [.text "duration_ms", .int .int64 0]
  match error with
  | none => l.log .info none "Operation completed" fields
  | some e => l.log .error (some e) "Operation failed" fields

end Logger

end TagLoom

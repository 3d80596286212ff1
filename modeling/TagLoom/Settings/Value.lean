import TagLoom.Settings
import TagLoom.Yaml.Reader
import TagLoom.Decimal.Notation

/-!
# Values of settings

A value as a source of settings gives it, and how fields take it.  Values are taken loosely: a
number may stand for a text, a text for a list, and so on.

Settings are chosen on the command line, in the environment, in a file, or not at all, in this
order.
-/

namespace TagLoom

/-- A value as a source gives it; null stands for no value. -/
inductive Setting where
  | null
  | bool (b : Bool)
  | int (n : Int)
  | float (f : Float)
  | time
  | text (s : Bytes)
  | list (items : List Setting)
  | table (entries : List (Bytes × Setting))
deriving Inhabited

namespace Setting

def ofScalar (plain : Bool) (text : Bytes) : Setting :=
  match Yaml.atom plain text with
  | .null => .null
  | .bool b => .bool b
  | .int n => .int n
  | .float f => .float f
  | .time => .time
  | .text => .text text

mutual

/-- The value of a document; keys are taken in lower case, and none may come twice as it is
written. -/
def ofYaml? : Yaml → Option Setting
  | .scalar plain s => some (ofScalar plain s)
  | .sequence vs => (ofItems? vs).map .list
  | .mapping ms => if Yaml.distinctKeys ms then (ofMembers? ms).map .table else none

def ofItems? : List Yaml → Option (List Setting)
  | [] => some []
  | v :: vs => do
      let x ← ofYaml? v
      let xs ← ofItems? vs
      return x :: xs

def ofMembers? : List (Yaml × Yaml) → Option (List (Bytes × Setting))
  | [] => some []
  | (.scalar _ k, v) :: ms => do
      let x ← ofYaml? v
      let xs ← ofMembers? ms
      return (Unicode.lowerText k, x) :: xs
  | _ :: _ => none

end

def get (v : Setting) (key : Bytes) : Setting :=
  match v with
  | .table es => ((es.reverse.find? (·.1 == key)).map (·.2)).getD .null
  | _ => .null

def isNull : Setting → Bool
  | .null => true
  | _ => false

def isFlat : Setting → Bool
  | .null | .table _ => false
  | _ => true

def insert (v : Setting) (key : Bytes) (new : Setting) : Setting :=
  match v with
  | .table es => .table (es.filter (·.1 != key) ++ [(key, new)])
  | _ => .table [(key, new)]

def put (v : Setting) : List Bytes → Setting → Setting
  | [], new => new
  | [key], new => v.insert key new
  | key :: more, new => v.insert key ((v.get key).put more new)

mutual

def shown : Setting → Bytes
  | .null => "<nil>"
  | .bool b => if b then "true" else "false"
  | .int n => Bytes.ofInt n
  | .float f => Decimal.writeGeneral f
  | .time => []
  | .text s => s
  | .list vs => "[" ++ Bytes.join " " (shownItems vs) ++ "]"
  | .table es => "map[" ++ Bytes.join " " (Bytes.sort (shownEntries es)) ++ "]"

def shownItems : List Setting → List Bytes
  | [] => []
  | v :: vs => shown v :: shownItems vs

def shownEntries : List (Bytes × Setting) → List Bytes
  | [] => []
  | (k, v) :: es => (k ++ ":" ++ shown v) :: shownEntries es

end

def kind : Setting → Bytes
  | .null => "invalid"
  | .bool _ => "bool"
  | .int _ => "int"
  | .float _ => "float64"
  | .time => "struct"
  | .text _ => "string"
  | .list _ => "slice"
  | .table _ => "map"

def typeName : Setting → Bytes
  | .time => "time.Time"
  | .list _ => "[]interface \x7b\x7d"
  | .table _ => "map[string]interface \x7b\x7d"
  | v => v.kind

end Setting

/-- Why a field cannot take a value. -/
inductive SettingFlaw where
  | notNumber (field text : Bytes) (error : Decimal.ReadError)
  | notSwitch (field text : Bytes)
  | notDuration (field text : Bytes) (flaw : DurationFlaw)
  | wrongType (field expected : Bytes) (value : Setting)
  /-- A value stands where a section is expected. -/
  | notSection (name : Bytes) (value : Setting)

def Decimal.ReadError.report (action text : Bytes) (e : Decimal.ReadError) : Bytes :=
  "strconv." ++ action ++ ": parsing " ++ Bytes.quote text ++ ": " ++ e.message

def SettingFlaw.message : SettingFlaw → Bytes
  | .notNumber field text e => "cannot parse '" ++ field ++ "' as int: " ++ e.report "ParseInt" text
  | .notSwitch field text =>
      "cannot parse '" ++ field ++ "' as bool: " ++ Decimal.ReadError.malformed.report "ParseBool" text
  | .notDuration field text flaw => "error decoding '" ++ field ++ "': " ++ flaw.message text
  | .wrongType field expected v =>
      "'" ++ field ++ "' expected type '" ++ expected ++ "', got unconvertible type '" ++ v.typeName ++
        "', value: '" ++ v.shown ++ "'"
  | .notSection name v => "'" ++ name ++ "' expected a map, got '" ++ v.kind ++ "'"

/-- How a field takes a value; flaws name the field. -/
abbrev SettingReading (α : Type) := Bytes → Setting → Except (List SettingFlaw) α

namespace Setting

/-! ## Loose readings

A null leaves what would be there without it. -/

def asText : SettingReading Bytes
  | _, .null => .ok []
  | _, .text s => .ok s
  | _, .bool b => .ok (if b then "1" else "0")
  | _, .int n => .ok (Bytes.ofInt n)
  | _, .float f => .ok (Decimal.writePositional f)
  | field, v => .error [.wrongType field "string" v]

/-- The whole number a text spells, in the base its start announces; underscores may stand between
digits. -/
def readInt (s : Bytes) : Except Decimal.ReadError Int :=
  let (negative, body) := Decimal.cutSign s
  let (base, digits) := Decimal.cutBase body
  if !Decimal.separated body then .error .malformed
  else match Decimal.readNat? base (Decimal.withoutUnderscores digits) with
    | none => .error .malformed
    | some n =>
        let value := if negative then -Int.ofNat n else Int.ofNat n
        if Decimal.minInt ≤ value && value ≤ Decimal.maxInt then .ok value else .error .outOfRange

def truncate (f : Float) : Int := f.toInt64.toInt

def ofBool (b : Bool) : Int := if b then 1 else 0

/-- A whole number; an empty text stands for zero. -/
def asNumber (typeName : Bytes) : SettingReading Int
  | _, .null => .ok 0
  | _, .int n => .ok (Int.bmod n (Nat.pow 2 64))
  | _, .float f => .ok (truncate f)
  | _, .bool b => .ok (ofBool b)
  | field, .text s =>
      if s.isEmpty then .ok 0
      else match readInt s with
        | .ok n => .ok n
        | .error e => .error [.notNumber field s e]
  | field, v => .error [.wrongType field typeName v]

def asInt : SettingReading Int := asNumber "int"

def trueWords : List Bytes := ["1", "t", "T", "true", "TRUE", "True"]

def falseWords : List Bytes := ["0", "f", "F", "false", "FALSE", "False"]

def readBool? (s : Bytes) : Option Bool :=
  if trueWords.contains s then some true else if falseWords.contains s then some false else none

/-- A truth value; an empty text stands for false. -/
def asBool : SettingReading Bool
  | _, .null => .ok false
  | _, .bool b => .ok b
  | _, .int n => .ok (n != 0)
  | _, .float f => .ok (f != 0.0)
  | field, .text s =>
      if s.isEmpty then .ok false
      else match readBool? s with
        | some b => .ok b
        | none => .error [.notSwitch field s]
  | field, v => .error [.wrongType field "bool" v]

/-- A span of time; a bare number counts nanoseconds. -/
def asDuration : SettingReading Duration
  | field, .text s =>
      match Duration.read s with
      | .ok d => .ok d
      | .error flaw => .error [.notDuration field s flaw]
  | field, v => asNumber "time.Duration" field v

def asTextsFrom (field : Bytes) (index : Nat) : List Setting → Except (List SettingFlaw) (List Bytes)
  | [] => .ok []
  | v :: vs =>
      match asText (field ++ "[" ++ Bytes.ofNat index ++ "]") v, asTextsFrom field (index + 1) vs with
      | .ok s, .ok ss => .ok (s :: ss)
      | .error e, .ok _ => .error e
      | .ok _, .error es => .error es
      | .error e, .error es => .error (e ++ es)

def asTexts : SettingReading (List Bytes)
  | _, .null => .ok []
  | _, .text s => .ok (if s.isEmpty then [] else Bytes.splitByte ','.toUInt8 s)
  | field, .list vs => asTextsFrom field 0 vs
  | _, .table [] => .ok []
  | field, v => asTextsFrom field 0 [v]

end Setting

/-- The table a YAML document holds; none when it is no table. -/
def Setting.read? (s : Bytes) : Option Setting := do
  match ← (Yaml.read? s).bind Setting.ofYaml? with
  | .table es => some (.table es)
  | .null => some (.table [])
  | _ => none

/-! ## Where settings come from -/

structure SettingsSources where
  /-- What was chosen outright. -/
  chosen : Setting
  /-- Variables of the environment; an empty value counts as none. -/
  environment : List (Bytes × Bytes)
  file : Setting

inductive SettingsError where
  /-- Fields cannot take the values they are given. -/
  | wrongKind (flaws : List SettingFlaw)
  | invalid (issue : SettingsIssue)

namespace SettingsError

def message : SettingsError → Bytes
  | .wrongKind flaws =>
      "decoding configuration: decoding failed due to the following error(s):\n\n" ++
        Bytes.join "\n" (flaws.map SettingFlaw.message)
  | .invalid issue => "invalid configuration: " ++ issue.text

end SettingsError

namespace SettingsSources

def variableMark : Bytes := "TAGLET"

def inEnvironment? (src : SettingsSources) (path : List Bytes) : Option Bytes :=
  let name := Bytes.join "_" (variableMark :: path.map Unicode.upperText)
  ((src.environment.find? (·.1 == name)).map (·.2)).filter (!·.isEmpty)

/-- A field in a file; a key with a dot in it stands for a path and comes before the path. -/
def inFile (file : Setting) (sec field : Bytes) : Setting :=
  let whole := file.get (sec ++ "." ++ field)
  if whole.isNull then (file.get sec).get field else whole

/-- The value of a field, if a source has one.  A source that has something else in the place of the
whole section hides the field from the sources after it. -/
def lookup (src : SettingsSources) (sec field : Bytes) : Option Setting :=
  let chosen := (src.chosen.get sec).get field
  if !chosen.isNull then some chosen
  else if (src.chosen.get sec).isFlat then some .null
  else match src.inEnvironment? [sec, field] with
    | some s => some (.text s)
    | none =>
        if (src.inEnvironment? [sec]).isSome then some .null
        else
          let v := inFile src.file sec field
          if !v.isNull then some v else if (src.file.get sec).isFlat then some .null else none

abbrev Collecting := StateM (List SettingFlaw)

def fieldOr {α : Type} (src : SettingsSources) (sec field : String) (read : SettingReading α)
    (fallback : α) : Collecting α := fun flaws =>
  match src.lookup (Bytes.ofString sec) (Bytes.ofString field) with
  | none => (fallback, flaws)
  | some v => match read (Bytes.ofString sec ++ "." ++ Bytes.ofString field) v with
    | .ok x => (x, flaws)
    | .error more => (fallback, flaws ++ more)

def noteSection (src : SettingsSources) (sec : String) : Collecting Unit := fun flaws =>
  let name := Bytes.ofString sec
  match [src.chosen.get name, src.file.get name].find? Setting.isFlat with
  | some v => ((), flaws ++ [.notSection name v])
  | none => ((), flaws)

def templates (src : SettingsSources) (std : TemplateSettings) : Collecting TemplateSettings := do
  src.noteSection "templates"
  return { dir := ← src.fieldOr "templates" "dir" Setting.asText std.dir
           extension := ← src.fieldOr "templates" "extension" Setting.asText std.extension
           exclude := ← src.fieldOr "templates" "exclude" Setting.asTexts std.exclude }

def output (src : SettingsSources) (std : OutputSettings) : Collecting OutputSettings := do
  src.noteSection "output"
  return { dir := ← src.fieldOr "output" "dir" Setting.asText std.dir
           package := ← src.fieldOr "output" "package" Setting.asText std.package
           manifest := ← src.fieldOr "output" "manifest" Setting.asText std.manifest }

def development (src : SettingsSources) (std : DevelopmentSettings) :
    Collecting DevelopmentSettings := do
  let sec := "development"
  src.noteSection sec
  return { host := ← src.fieldOr sec "host" Setting.asText std.host
           port := ← src.fieldOr sec "port" Setting.asInt std.port
           debounce := ← src.fieldOr sec "debounce" Setting.asDuration std.debounce
           liveReload := ← src.fieldOr sec "live_reload" Setting.asBool std.liveReload
           allowedOrigins := ← src.fieldOr sec "allowed_origins" Setting.asTexts std.allowedOrigins
           compileTimeout := ← src.fieldOr sec "compile_timeout" Setting.asDuration std.compileTimeout
           writeOutput := ← src.fieldOr sec "write_output" Setting.asBool std.writeOutput
           checkCommand := ← src.fieldOr sec "check_command" Setting.asText std.checkCommand
           checkTimeout := ← src.fieldOr sec "check_timeout" Setting.asDuration std.checkTimeout }

def log (src : SettingsSources) (std : LogSettings) : Collecting LogSettings := do
  src.noteSection "log"
  return { level := ← src.fieldOr "log" "level" Setting.asText std.level
           format := ← src.fieldOr "log" "format" Setting.asText std.format }

def sections (src : SettingsSources) : Collecting Settings := do
  let std := Settings.standard
  return { templates := ← src.templates std.templates
           output := ← src.output std.output
           development := ← src.development std.development
           log := ← src.log std.log }

def collect (src : SettingsSources) : Except SettingsError Settings :=
  match src.sections [] with
  | (s, []) => .ok s
  | (_, flaws) => .error (.wrongKind flaws)

def load (src : SettingsSources) : Except SettingsError Settings := do
  let s ← src.collect
  match s.review.errors with
  | [] => return s
  | issue :: _ => throw (.invalid issue)

end SettingsSources

end TagLoom

import TagLoom.CommandLine.Command
import TagLoom.EnvironmentFile
import TagLoom.Settings.Value
import TagLoom.Disk
import TagLoom.Json

/-!
# Start of a command

What a command finds before it runs: the variables of the environment, to which a file `.env` adds,
and a file of settings.  A file of settings that cannot be read is passed over.
-/

namespace TagLoom

namespace Setting

mutual

def ofJson : Json → Setting
  | .null => .null
  | .bool b => .bool b
  | .number t =>
      match Decimal.readFloat t with
      | .ok f => .float f
      | .error _ => .null
  | .string s => .text s
  | .array items => .list (ofJsonItems items)
  | .object members => .table (ofJsonMembers members)

def ofJsonItems : List Json → List Setting
  | [] => []
  | j :: js => ofJson j :: ofJsonItems js

def ofJsonMembers : List (Bytes × Json) → List (Bytes × Setting)
  | [] => []
  | (k, j) :: ms => (Unicode.lowerText k, ofJson j) :: ofJsonMembers ms

end

def readJson? (s : Bytes) : Option Setting := do
  match ← Json.read? s with
  | .object members => some (.table (ofJsonMembers members))
  | .null => some (.table [])
  | _ => none

end Setting

structure Startup where
  environment : EnvironmentFile.Bindings
  file : Setting
  /-- The file of settings that was read. -/
  fileName : Option Bytes

namespace Startup

def variableFile : Bytes := ".env"

def bindings (d : Disk) (process : EnvironmentFile.Bindings) : EnvironmentFile.Bindings :=
  match d.read variableFile with
  | .error _ => process
  | .ok content => process.orElse ((EnvironmentFile.read? content).getD [])

/-- Endings a file of settings may have, in the order in which they are tried. -/
def endings : List Bytes :=
  ([".json", ".toml", ".yaml", ".yml", ".properties", ".props", ".prop", ".hcl", ".tfvars", ".dotenv",
    ".env", ".ini", ""] : List String).map Bytes.ofString

def settingsName : Bytes := ".taglet"

def find? (d : Disk) : Option Bytes :=
  (endings.map (settingsName ++ ·)).find? fun name =>
    match d.stat name with
    | .ok (.file _) => true
    | _ => false

def ending (path : Bytes) : Bytes :=
  let name := (Path.components path).getLastD []
  match Bytes.lastIndexOf? name '.'.toUInt8 with
  | some i => name.drop (i + 1)
  | none => []

def reader? (ending : Bytes) : Option (Bytes → Option Setting) :=
  if ending == Bytes.ofString "yaml" || ending == Bytes.ofString "yml" then some Setting.read?
  else if ending == Bytes.ofString "json" then some Setting.readJson?
  else none

def load? (d : Disk) (path : Bytes) (reader : Bytes → Option Setting) : Option Setting :=
  match d.read path with
  | .ok content => reader content
  | .error _ => none

/-- The file of settings with its name: the one that was asked for by a flag or a variable, or the
one in the working directory, which is taken for YAML whatever its ending. -/
def settingsFile? (d : Disk) (asked : Bytes) : Option (Bytes × Setting) :=
  if asked.isEmpty then do
    let name ← find? d
    let v ← load? d name Setting.read?
    return (d.absolute name, v)
  else do
    let reader ← reader? (ending asked)
    let v ← load? d asked reader
    return (asked, v)

def settingsVariable : Bytes := SettingsSources.variableMark ++ "_CONFIG_FILE"

/-- The fields of settings that variables can set, by section. -/
def fields : List (String × List String) :=
  [("TEMPLATES", ["DIR", "EXTENSION", "EXCLUDE"]), ("OUTPUT", ["DIR", "PACKAGE", "MANIFEST"]),
    ("DEVELOPMENT", ["HOST", "PORT", "DEBOUNCE", "LIVE_RELOAD", "ALLOWED_ORIGINS", "COMPILE_TIMEOUT",
      "WRITE_OUTPUT", "CHECK_COMMAND", "CHECK_TIMEOUT"]),
    ("LOG", ["LEVEL", "FORMAT"])]

def variableNames : List Bytes :=
  settingsVariable :: fields.flatMap fun (sec, names) =>
    let whole := SettingsSources.variableMark ++ "_" ++ Bytes.ofString sec
    whole :: names.map fun name => whole ++ "_" ++ Bytes.ofString name

/-- The start of a command whose flag for a file of settings has a value, which may be empty. -/
def begin (d : Disk) (process : EnvironmentFile.Bindings) (flag : Bytes) : Startup :=
  let vars := bindings d process
  let asked := if flag.isEmpty then (vars.get? settingsVariable).getD [] else flag
  match settingsFile? d asked with
  | some (name, v) => ⟨vars, v, some name⟩
  | none => ⟨vars, .table [], none⟩

def notice (s : Startup) : Bytes :=
  match s.fileName with
  | some name => "Using config file: " ++ name ++ "\n"
  | none => []

def settings (s : Startup) (args : Arguments) : Except SettingsError Settings :=
  (SettingsSources.mk args.chosen s.environment s.file).load

end Startup

end TagLoom

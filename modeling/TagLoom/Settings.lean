import TagLoom.CheckCommand
import TagLoom.Code
import TagLoom.Glob
import TagLoom.Unicode.Case
import TagLoom.Unicode.Letter

/-!
# Settings

What a user can choose: where templates are and where generated code goes, how the development
server behaves, and what is logged.

Issues with settings are found field by field.  Errors keep a program from starting; warnings do
not.
-/

namespace TagLoom

structure TemplateSettings where
  dir : Bytes
  extension : Bytes
  exclude : List Bytes
deriving DecidableEq, Inhabited

/-- Where generated code goes; an empty manifest path stands for no manifest. -/
structure OutputSettings where
  dir : Bytes
  package : Bytes
  manifest : Bytes
deriving DecidableEq, Inhabited

structure DevelopmentSettings where
  host : Bytes
  port : Int
  debounce : Duration
  liveReload : Bool
  allowedOrigins : List Bytes
  compileTimeout : Duration
  /-- Whether generated sources are written after each pass. -/
  writeOutput : Bool
  checkCommand : Bytes
  checkTimeout : Duration
deriving DecidableEq, Inhabited

structure LogSettings where
  level : Bytes
  format : Bytes
deriving DecidableEq, Inhabited

structure Settings where
  templates : TemplateSettings
  output : OutputSettings
  development : DevelopmentSettings
  log : LogSettings
deriving DecidableEq, Inhabited

namespace Settings

def standard : Settings where
  templates := ⟨"./templates", ".html", ["*_test.html", "*.bak"]⟩
  output := ⟨"./views", "views", []⟩
  development :=
    { host := "localhost"
      port := 8080
      debounce := 100 * Duration.millisecond
      liveReload := true
      allowedOrigins := []
      compileTimeout := 30 * Duration.second
      writeOutput := false
      checkCommand := []
      checkTimeout := 30 * Duration.second }
  log := ⟨"info", "text"⟩

end Settings

/-! ## Issues -/

structure SettingsIssue where
  field : Bytes
  message : Bytes
  hints : List Bytes
deriving DecidableEq, Inhabited

namespace SettingsIssue

def text (i : SettingsIssue) : Bytes := "validation error in " ++ i.field ++ ": " ++ i.message

def lines (i : SettingsIssue) : Bytes :=
  "  - " ++ i.field ++ ": " ++ i.message ++ "\n" ++
    i.hints.flatMap fun hint => Bytes.ofString "    hint: " ++ hint ++ Bytes.ofString "\n"

end SettingsIssue

structure SettingsReview where
  errors : List SettingsIssue
  warnings : List SettingsIssue
deriving DecidableEq, Inhabited

namespace SettingsReview

def append (a b : SettingsReview) : SettingsReview := ⟨a.errors ++ b.errors, a.warnings ++ b.warnings⟩

instance : Append SettingsReview := ⟨append⟩

def none : SettingsReview := ⟨[], []⟩

def error (field message : Bytes) (hints : List Bytes) : SettingsReview := ⟨[⟨field, message, hints⟩], []⟩

def warning (field message : Bytes) (hints : List Bytes) : SettingsReview := ⟨[], [⟨field, message, hints⟩]⟩

def when (condition : Bool) (r : SettingsReview) : SettingsReview := if condition then r else none

def titled (title : Bytes) (issues : List SettingsIssue) : Bytes :=
  Bytes.when (!issues.isEmpty) (title ++ ":\n" ++ issues.flatMap SettingsIssue.lines)

def toBytes (r : SettingsReview) : Bytes :=
  titled "Validation errors" r.errors ++ titled "Validation warnings" r.warnings

end SettingsReview

namespace Settings

open SettingsReview

def pathCharacters : List Bytes := [";", "&", "|", "$", "\x60", "(", ")", "<", ">", "\"", "'"]

def hostCharacters : List Bytes := pathCharacters ++ [Bytes.ofString "\\"]

/-- What is wrong with a path.  A path may not lead up from where it starts; two dots within a name
count as well. -/
def pathFlaw? (path : Bytes) : Option Bytes :=
  let clean := Path.clean path
  if path.isEmpty then some "empty path"
  else if Bytes.includes clean ".." then some ("path contains traversal: " ++ path)
  else (pathCharacters.find? (Bytes.includes clean)).map fun c =>
    Bytes.ofString "path contains dangerous character: " ++ c

def reviewPath (field path : Bytes) : SettingsReview :=
  match pathFlaw? path with
  | some m => error field m []
  | Option.none => none

def isWordStart (r : Nat) : Bool := Unicode.isLetter r || r == '_'.toNat

def isPackageName (s : Bytes) : Bool :=
  match Utf8.runes s with
  | [] => false
  | r :: rest =>
      isWordStart r && rest.all (fun r => isWordStart r || Unicode.isDigit r) &&
        !Code.keywords.contains s && s != Bytes.ofString "_"

def reviewTemplates (t : TemplateSettings) : SettingsReview :=
  reviewPath "templates.dir" t.dir ++
  when (!Bytes.startsWith t.extension "." || t.extension.length < 2)
    (error "templates.extension" ("extension " ++ Bytes.quote t.extension ++ " must start with a dot")
      ["Use an extension with a leading dot, such as .html"]) ++
  ⟨(t.exclude.filter (!Glob.isValid ·)).map fun pattern =>
    ⟨"templates.exclude", "invalid glob " ++ Bytes.quote pattern ++ ": syntax error in pattern", []⟩, []⟩

def reviewOutput (o : OutputSettings) : SettingsReview :=
  reviewPath "output.dir" o.dir ++
  when (!isPackageName o.package)
    (error "output.package" (Bytes.quote o.package ++ " is not a valid Go package name")
      ["Use a lowercase Go package name such as views"]) ++
  when (!o.manifest.isEmpty) (reviewPath "output.manifest" o.manifest)

def reviewPort (port : Int) : SettingsReview :=
  if port < 0 || port > 65535 then
    error "development.port" ("port " ++ Bytes.ofInt port ++ " is not in valid range 0-65535")
      ["Common development ports: 3000, 8080, 8000", "Port 0 lets the system assign a port"]
  else when (port > 0 && port < 1024)
    (warning "development.port" "port below 1024 requires elevated privileges"
      ["Use a port between 1024-65535 for non-privileged access"])

def reviewHost (host : Bytes) : SettingsReview :=
  match hostCharacters.find? (Bytes.includes host) with
  | some c => error "development.host" ("host contains dangerous character: " ++ c) []
  | Option.none => none

def reviewCheck (d : DevelopmentSettings) : SettingsReview :=
  (match CheckCommand.parse d.checkCommand d.checkTimeout with
    | .ok _ => none
    | .error flaw => error "development.check_command" flaw.message
        ["Allowed commands: go, gofmt, staticcheck"]) ++
  when (!d.writeOutput)
    (warning "development.check_command" "check command only runs when generated sources are written"
      ["Set development.write_output to true"])

def reviewDevelopment (d : DevelopmentSettings) : SettingsReview :=
  reviewPort d.port ++ reviewHost d.host ++
  when (d.debounce < 0) (error "development.debounce" "debounce must not be negative" []) ++
  when (d.compileTimeout < 0)
    (error "development.compile_timeout" "compile timeout must not be negative" []) ++
  when (!d.checkCommand.isEmpty) (reviewCheck d)

def logLevels : List Bytes := ["debug", "info", "warn", "warning", "error"]

def logFormats : List Bytes := ["text", "json"]

def reviewLog (l : LogSettings) : SettingsReview :=
  when (!logLevels.contains (Unicode.lowerText l.level))
    (error "log.level" ("unknown log level " ++ Bytes.quote l.level) ["Use debug, info, warn or error"]) ++
  when (!logFormats.contains l.format)
    (error "log.format" ("unknown log format " ++ Bytes.quote l.format) ["Use text or json"])

def review (s : Settings) : SettingsReview :=
  reviewTemplates s.templates ++ reviewOutput s.output ++ reviewDevelopment s.development ++
    reviewLog s.log

end Settings

end TagLoom

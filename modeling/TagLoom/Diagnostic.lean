import TagLoom.Bytes.Quoted

/-!
# Diagnostics

What a compilation reports, each report at a place of a file.
-/

namespace TagLoom

inductive DiagnosticKind where
  | source
  | resolution
  | inference
  | generation
  /-- A stage this library knows nothing of. -/
  | unknown
deriving DecidableEq, Inhabited

def DiagnosticKind.label : DiagnosticKind → Bytes
  | .source => "syntax"
  | .resolution => "resolution"
  | .inference => "inference"
  | .generation => "generation"
  | .unknown => "unknown"

def DiagnosticKind.ofLabel (word : Bytes) : DiagnosticKind :=
  ([.source, .resolution, .inference, .generation].find? (·.label == word)).getD .unknown

inductive Severity where
  | error
  | warning
  /-- A severity this library knows nothing of; it is neither an error nor a warning. -/
  | unknown
deriving DecidableEq, Inhabited

def Severity.label : Severity → Bytes
  | .error => "error"
  | .warning => "warning"
  | .unknown => "unknown"

def Severity.ofLabel (word : Bytes) : Severity :=
  ([.error, .warning].find? (·.label == word)).getD .unknown

/-- A report at a place of a file; line 0 means the file as a whole. -/
structure Diagnostic where
  kind : DiagnosticKind
  severity : Severity
  message : Bytes
  file : Bytes
  line : Int
  column : Int
  suggestions : List Bytes
deriving DecidableEq, Inhabited

namespace Diagnostic

def error (kind : DiagnosticKind) (file : Bytes) (line column : Int) (message : Bytes) :
    Diagnostic := ⟨kind, .error, message, file, line, column, []⟩

def warning (kind : DiagnosticKind) (file : Bytes) (line column : Int) (message : Bytes) :
    Diagnostic := ⟨kind, .warning, message, file, line, column, []⟩

def isError (d : Diagnostic) : Bool := d.severity == .error

/-- The report on one line: its place, its message and its suggestions. -/
def toBytes (d : Diagnostic) : Bytes :=
  Bytes.when (!d.file.isEmpty) (d.file ++
    Bytes.when (d.line > 0) (":" ++ Bytes.ofInt d.line ++ ":" ++ Bytes.ofInt d.column) ++ ": ") ++
  Bytes.when (d.severity == .warning) "warning: " ++
  d.message ++
  Bytes.when (!d.suggestions.isEmpty)
    (" (did you mean " ++ Bytes.join ", " (d.suggestions.map Bytes.quote) ++ "?)")

def location (d : Diagnostic) : Bytes :=
  if d.line == 0 then d.file
  else d.file ++ ":" ++ Bytes.ofInt d.line ++ ":" ++ Bytes.ofInt d.column

/-- Whether a report may stand before another in a sorted list: by file, line, column. -/
def le (a b : Diagnostic) : Bool :=
  if a.file != b.file then Bytes.lt a.file b.file
  else if a.line != b.line then a.line < b.line
  else a.column ≤ b.column

/-- The reports by file, line and column; reports at one place keep their order. -/
def sort (ds : List Diagnostic) : List Diagnostic := ds.mergeSort le

def hasErrors (ds : List Diagnostic) : Bool := ds.any isError

def errors (ds : List Diagnostic) : List Diagnostic := ds.filter isError

def warnings (ds : List Diagnostic) : List Diagnostic := ds.filter (·.severity == .warning)

def ofFile (ds : List Diagnostic) (file : Bytes) : List Diagnostic := ds.filter (·.file == file)

def summary? (ds : List Diagnostic) : Option Bytes :=
  match errors ds with
  | [] => none
  | [d] => some d.toBytes
  | es => some (Bytes.join "\n"
      ((Bytes.ofNat es.length ++ " compiler errors:") :: es.map fun d => "  " ++ d.toBytes))

end Diagnostic

end TagLoom

/-!
## Printed reports

Diagnostics as a command prints them: a line for each, a line for each suggestion, and how many
there are.
-/

namespace TagLoom.Diagnostic

def setOff (s : Bytes) : Bytes := Bytes.replaceAll s "\t" "    "

def reportLines (d : Diagnostic) : Bytes :=
  setOff d.location ++ ": " ++ (if d.severity == .warning then "warning" else "error") ++ " " ++
    d.message ++ " [" ++ d.kind.label ++ "]\n" ++
    Bytes.concat (d.suggestions.map fun s => "  did you mean " ++ setOff s ++ "?\n")

def tally (ds : List Diagnostic) : Bytes :=
  let warned := Bytes.ofNat (warnings ds).length ++ " warning(s)\n"
  match (errors ds).length, (warnings ds).length with
  | 0, 0 => []
  | 0, _ => warned
  | n, _ => Bytes.ofNat n ++ " error(s), " ++ warned

def report (ds : List Diagnostic) : Bytes := ds.flatMap reportLines ++ tally ds

end TagLoom.Diagnostic

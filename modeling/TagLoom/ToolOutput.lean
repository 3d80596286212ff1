import TagLoom.Diagnostic
import TagLoom.Decimal.Read
import TagLoom.Unicode.Space
import TagLoom.Unicode.Case

/-!
# Output of tools

What a tool prints about generated sources, read as warnings.  A line that starts with a place keeps
it; other lines count only when they speak of an error.
-/

namespace TagLoom.ToolOutput

def place (digits : Bytes) : Int :=
  match Decimal.readNat? 10 digits with
  | some n => if (n : Int) > Decimal.maxInt then Decimal.maxInt else n
  | none => 0

/-- Digits between colons at the start of a text, and what follows. -/
def number? (s : Bytes) : Option (Bytes × Bytes) :=
  match s with
  | c :: rest =>
      let digits := rest.takeWhile Bytes.isDigit
      if c != ':'.toUInt8 || digits.isEmpty then none else some (digits, rest.drop digits.length)
  | [] => none

def message? (s : Bytes) : Option Bytes :=
  let rest := s.drop 2
  if Bytes.startsWith s ": " && !rest.isEmpty then some rest else none

def lineColumn? (s : Bytes) : Option (Int × Int × Bytes) := do
  let (line, s) ← number? s
  let (column, s) ← number? s
  let m ← message? s
  return (place line, place column, m)

def lineOnly? (s : Bytes) : Option (Int × Int × Bytes) := do
  let (line, s) ← number? s
  let m ← message? s
  return (place line, 0, m)

/-- The shortest file name, at least one character long, after which a reader finds a place. -/
def afterFile? (read : Bytes → Option (Int × Int × Bytes)) (file : Bytes) :
    Bytes → Option (Bytes × Int × Int × Bytes)
  | [] => none
  | c :: rest =>
      match if file.isEmpty then none else read (c :: rest) with
      | some (line, column, m) => some (file, line, column, m)
      | none => afterFile? read (file ++ [c]) rest

def ofLine? (tool line : Bytes) : Option Diagnostic :=
  let report (file : Bytes) (l c : Int) (m : Bytes) : Diagnostic :=
    .warning .generation file l c (tool ++ ": " ++ m)
  match afterFile? lineColumn? [] line with
  | some (file, l, c, m) => some (report file l c m)
  | none =>
      match afterFile? lineOnly? [] line with
      | some (file, l, c, m) => some (report file l c m)
      | none =>
          if Bytes.startsWith line "go: " && line.length > 4 then some (report [] 0 0 (line.drop 4))
          else
            let lower := Unicode.lowerText line
            if Bytes.includes lower "error" || Bytes.includes lower "failed"
            then some (report [] 0 0 line) else none

/-- The reports in what a tool printed; empty lines and headers are passed over. -/
def reports (tool output : Bytes) : List Diagnostic :=
  ((Bytes.lines output).map Unicode.trim).filterMap fun line =>
    if line.isEmpty || Bytes.startsWith line "#" then none else ofLine? tool line

end TagLoom.ToolOutput

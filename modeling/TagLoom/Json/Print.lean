import TagLoom.Json
import TagLoom.Bytes.Quoted

/-!
# Written JSON

Values on one line, or with one item a line.  Characters that mean something in markup may be
escaped as well.
-/

namespace TagLoom.Json

structure PrintStyle where
  /-- Whether `<`, `>` and `&` are escaped. -/
  escapeMarkup : Bool
  /-- Whether backspace and form feed have letters of their own. -/
  allLetters : Bool
deriving DecidableEq, Inhabited

def unicodeEscape (r : Nat) : Bytes := "\\u" ++ Bytes.hex 4 r

def printByte (style : PrintStyle) (c : UInt8) : Bytes :=
  if c == '"'.toUInt8 || c == '\\'.toUInt8 then ['\\'.toUInt8, c]
  else if c == 10 then "\\n"
  else if c == 13 then "\\r"
  else if c == 9 then "\\t"
  else if style.allLetters && c == 8 then "\\b"
  else if style.allLetters && c == 12 then "\\f"
  else if c < 0x20 then unicodeEscape c.toNat
  else if style.escapeMarkup && (c == '<'.toUInt8 || c == '>'.toUInt8 || c == '&'.toUInt8) then
    unicodeEscape c.toNat
  else [c]

def printCell (style : PrintStyle) (cell : Utf8.Cell) : Bytes :=
  if cell.rune == 0x2028 || cell.rune == 0x2029 then unicodeEscape cell.rune
  else match cell.spelled with
    | [c] => if c < 0x80 then printByte style c else unicodeEscape Utf8.replacement
    | spelled => spelled

def printString (style : PrintStyle) (s : Bytes) : Bytes :=
  "\"" ++ (Utf8.cells s).flatMap (printCell style) ++ "\""

mutual

def compact (style : PrintStyle) : Json → Bytes
  | .null => "null"
  | .bool b => if b then "true" else "false"
  | .number t => t
  | .string s => printString style s
  | .array items => "[" ++ compactItems style items ++ "]"
  | .object members => "\x7b" ++ compactMembers style members ++ "\x7d"

def compactItems (style : PrintStyle) : List Json → Bytes
  | [] => []
  | [j] => compact style j
  | j :: js => compact style j ++ "," ++ compactItems style js

def compactMembers (style : PrintStyle) : List (Bytes × Json) → Bytes
  | [] => []
  | [(k, j)] => printString style k ++ ":" ++ compact style j
  | (k, j) :: ms => printString style k ++ ":" ++ compact style j ++ "," ++ compactMembers style ms

end

def lineStart (depth : Nat) : Bytes := "\n" ++ Bytes.fill (2 * depth) 32

mutual

def pretty (style : PrintStyle) (depth : Nat) : Json → Bytes
  | .array [] => "[]"
  | .array items => "[" ++ prettyItems style (depth + 1) items ++ lineStart depth ++ "]"
  | .object [] => "\x7b\x7d"
  | .object members => "\x7b" ++ prettyMembers style (depth + 1) members ++ lineStart depth ++ "\x7d"
  | .null => "null"
  | .bool b => if b then "true" else "false"
  | .number t => t
  | .string s => printString style s

def prettyItems (style : PrintStyle) (depth : Nat) : List Json → Bytes
  | [] => []
  | [j] => lineStart depth ++ pretty style depth j
  | j :: js => lineStart depth ++ pretty style depth j ++ "," ++ prettyItems style depth js

def prettyMembers (style : PrintStyle) (depth : Nat) : List (Bytes × Json) → Bytes
  | [] => []
  | [(k, j)] => lineStart depth ++ printString style k ++ ": " ++ pretty style depth j
  | (k, j) :: ms => lineStart depth ++ printString style k ++ ": " ++ pretty style depth j ++ "," ++
      prettyMembers style depth ms

end

end TagLoom.Json

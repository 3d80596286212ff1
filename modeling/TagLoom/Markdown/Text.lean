import TagLoom.Bytes.Utf8
import TagLoom.Bytes.Quoted
import TagLoom.Decimal.Read
import TagLoom.Entity

/-!
# Lines and text of a document

How the lines of a document are read, and how its text and addresses are written as HTML.  Output is
a list of pieces in the order in which they are written.
-/

namespace TagLoom.Markdown

/-! ## Characters -/

def isPunct (c : UInt8) : Bool :=
  (33 ≤ c && c ≤ 47) || (58 ≤ c && c ≤ 64) || (91 ≤ c && c ≤ 96) || (123 ≤ c && c ≤ 126)

def isBlank (c : UInt8) : Bool := c == 32 || (9 ≤ c && c ≤ 13)

def isAlphaNumeric (c : UInt8) : Bool := Bytes.isLetter c || Bytes.isDigit c

def isBlankLine (s : Bytes) : Bool := s.all isBlank

def trimLeft (s : Bytes) : Bytes := s.dropWhile isBlank

def trimRight (s : Bytes) : Bytes := Bytes.trimRightWhere isBlank s

def runLength (c : UInt8) (s : Bytes) : Nat := (s.takeWhile (· == c)).length

def withoutNewline (s : Bytes) : Bytes := if s.getLast? == some 10 then s.dropLast else s

def sourceLines : Bytes → List Bytes
  | [] => []
  | c :: rest =>
      if c == 10 then [c] :: sourceLines rest
      else match sourceLines rest with
        | [] => [[c]]
        | l :: ls => (c :: l) :: ls

/-! ## Indentation -/

def tabWidth (column : Nat) : Nat := 4 - column % 4

def indentColumns (column : Nat) : Bytes → Nat
  | [] => 0
  | c :: rest =>
      if c == 32 then 1 + indentColumns (column + 1) rest
      else if c == 9 then tabWidth column + indentColumns (column + tabWidth column) rest
      else 0

def indentLength (s : Bytes) : Nat := (s.takeWhile fun c => c == 32 || c == 9).length

/-- Takes a width of indentation from a text at a column: the bytes that are taken, and the columns
of the last one that are left over. -/
def takeIndent (column : Nat) : Nat → Bytes → Option (Nat × Nat)
  | 0, _ => some (0, 0)
  | _, [] => none
  | width + 1, c :: rest =>
      if c == 32 then (takeIndent (column + 1) width rest).map fun (n, left) => (n + 1, left)
      else if c == 9 then
        let tab := tabWidth column
        if tab ≤ width + 1 then
          (takeIndent (column + tab) (width + 1 - tab) rest).map fun (n, left) => (n + 1, left)
        else some (1, tab - (width + 1))
      else none
termination_by _ s => s.length

/-!
## Lines

A line is read from the left while the blocks around it take their marks.  What is left of it
starts at a column; a tab goes on to the next column that is a multiple of four, and a tab of which
only a part is taken leaves blanks.
-/

structure Line where
  source : Bytes
  column : Nat
  rest : Bytes
deriving DecidableEq, Inhabited

namespace Line

def ofSource (source : Bytes) : Line := ⟨source, 0, source⟩

def advance : Nat → Line → Line
  | 0, l => l
  | n + 1, l =>
      match l.rest with
      | [] => l
      | c :: rest =>
          advance n { l with column := l.column + (if c == 9 then tabWidth l.column else 1), rest }

def pad (l : Line) (blanks : Nat) : Line :=
  { l with column := l.column - blanks, rest := Bytes.fill blanks 32 ++ l.rest }

def finish (l : Line) : Line :=
  { l with rest := if l.rest.getLast? == some 10 then [10] else [] }

def isBlank (l : Line) : Bool := isBlankLine l.rest

def indent (l : Line) : Nat := indentColumns l.column l.rest

def takeIndent? (l : Line) (width : Nat) : Option Line :=
  (takeIndent l.column width l.rest).map fun (n, left) => (l.advance n).pad left

end Line

/-- A line of running text: what stands before the text on its source line, and the text with its
line end. -/
structure TextLine where
  lead : Bytes
  text : Bytes
deriving DecidableEq, Inhabited

namespace TextLine

/-- What is left of a line without the blanks at its start; nothing when it is blank. -/
def ofLine? (l : Line) : Option TextLine :=
  let text := trimLeft l.rest
  if text.isEmpty then none
  else some ⟨l.source.take (l.source.length - text.length), text⟩

def trimLast (lines : List TextLine) : List TextLine :=
  match lines.reverse with
  | [] => []
  | last :: before => (({ last with text := trimRight last.text } : TextLine) :: before).reverse

end TextLine

abbrev Pieces := List Bytes

/-! ## Escapes -/

def entity? (c : UInt8) : Option Bytes :=
  if c == '&'.toUInt8 then some "&amp;"
  else if c == '<'.toUInt8 then some "&lt;"
  else if c == '>'.toUInt8 then some "&gt;"
  else if c == '"'.toUInt8 then some "&quot;"
  else none

def escape (s : Bytes) : Bytes := s.flatMap fun c => (entity? c).getD [c]

/-- Such text in pieces: the runs between escaped bytes, and those bytes. -/
def rawPieces (s : Bytes) : Pieces :=
  s.foldr (fun c (pieces : Pieces) =>
    match entity? c, pieces with
    | some e, _ => [] :: e :: pieces
    | none, run :: rest => (c :: run) :: rest
    | none, [] => [[c]]) [[]]

/-! ## References -/

def validRune (n : Nat) : Utf8.Rune :=
  if n == 0 || n > 0x10FFFF || Utf8.isSurrogate n then Utf8.replacement else n

/-- The value of decimal digits; after a zero they are octal, and zero when they are not. -/
def referenceNumber (digits : Bytes) : Nat :=
  match digits with
  | 48 :: _ :: _ => (Decimal.readNat? 8 digits).getD 0
  | _ => (Decimal.readNat? 10 digits).getD 0

def isHexDigit (c : UInt8) : Bool := Bytes.isDigit c || (97 ≤ c && c ≤ 102) || (65 ≤ c && c ≤ 70)

def afterSemicolon? : Bytes → Option Bytes
  | 59 :: rest => some rest
  | _ => none

/-- The code point of a numeric reference whose ampersand is taken, and what follows. -/
def numericReference? (s : Bytes) : Option (Utf8.Rune × Bytes) :=
  match s with
  | 35 :: 120 :: rest | 35 :: 88 :: rest => do
      let digits := rest.takeWhile isHexDigit
      let after ← afterSemicolon? (rest.drop digits.length)
      if digits.isEmpty || digits.length > 6 then none
      else some (validRune ((Decimal.readNat? 16 digits).getD 0), after)
  | 35 :: rest => do
      let digits := rest.takeWhile Bytes.isDigit
      let after ← afterSemicolon? (rest.drop digits.length)
      if digits.isEmpty || digits.length > 7 then none
      else some (validRune (referenceNumber digits), after)
  | _ => none

/-- The code points of a named reference whose ampersand is taken, and what follows. -/
def namedReference? (s : Bytes) : Option (List Utf8.Rune × Bytes) := do
  let name := s.takeWhile isAlphaNumeric
  let after ← afterSemicolon? (s.drop name.length)
  let runes ← Entity.find? name
  some (runes, after)

/-! ## Running text -/

/-- Running text in pieces.  The run not yet written comes along backwards; the count bounds the
number of steps. -/
def textPiecesWithin : Nat → Bytes → Bytes → Pieces
  | 0, run, s => rawPieces (run.reverse ++ s)
  | _ + 1, run, [] => rawPieces run.reverse
  | fuel + 1, run, c :: rest =>
      if c == 0 then
        rawPieces run.reverse ++ rawPieces (Utf8.encode Utf8.replacement) ++
          textPiecesWithin fuel [] rest
      else if c == '\\'.toUInt8 then
        match rest with
        | p :: rest' =>
            if isPunct p then rawPieces run.reverse ++ textPiecesWithin fuel [p] rest'
            else textPiecesWithin fuel (c :: run) rest
        | [] => textPiecesWithin fuel (c :: run) rest
      else if c == '&'.toUInt8 then
        match numericReference? rest with
        | some (r, after) =>
            rawPieces run.reverse ++ [escape (Utf8.encode r)] ++ textPiecesWithin fuel [] after
        | none =>
            match namedReference? rest with
            | some (runes, after) =>
                rawPieces run.reverse ++ rawPieces (Utf8.ofRunes runes) ++
                  textPiecesWithin fuel [] after
            | none => textPiecesWithin fuel (c :: run) rest
      else textPiecesWithin fuel (c :: run) rest

def textPieces (s : Bytes) : Pieces := textPiecesWithin (s.length + 1) [] s

/-! ## Addresses -/

def unescape : Bytes → Bytes
  | 92 :: p :: rest => if isPunct p then p :: unescape rest else 92 :: unescape (p :: rest)
  | c :: rest => c :: unescape rest
  | [] => []
termination_by s => s.length

def resolveWith (reference? : Bytes → Option (Bytes × Bytes)) : Nat → Bytes → Bytes
  | 0, s => s
  | _ + 1, [] => []
  | fuel + 1, c :: rest =>
      match if c == '&'.toUInt8 then reference? rest else none with
      | some (text, after) => text ++ resolveWith reference? fuel after
      | none => c :: resolveWith reference? fuel rest

/-- An address as it is meant: first backslashes, then numeric and then named references count. -/
def resolveAddress (s : Bytes) : Bytes :=
  let s := unescape s
  let s := resolveWith (fun t => (numericReference? t).map fun (r, after) => (Utf8.encode r, after))
    s.length s
  resolveWith (fun t => (namedReference? t).map fun (rs, after) => (Utf8.ofRunes rs, after)) s.length s

def isUrlSafe (c : UInt8) : Bool :=
  isAlphaNumeric c || ("-_.!~*'();/?:@&=+$,#" : String).toUTF8.data.contains c

def percent (c : UInt8) : Bytes := Bytes.upperAscii ("%" ++ Bytes.hex 2 c.toNat)

/-- The length of the character that a byte starts; zero for a byte that starts none. -/
def leadLength (c : UInt8) : Nat :=
  if c < 0x80 then 1 else if c < 0xC2 then 0 else if c < 0xE0 then 2 else if c < 0xF0 then 3
  else if c < 0xF5 then 4 else 0

/-- An address with all but its safe bytes as percent escapes; escapes it has stay. -/
def percentEncode : Bytes → Bytes
  | [] => []
  | 37 :: h :: l :: rest =>
      if isHexDigit h then 37 :: h :: l :: percentEncode rest
      else percent 37 ++ percentEncode (h :: l :: rest)
  | c :: rest =>
      if isUrlSafe c then c :: percentEncode rest
      else
        let n := leadLength c
        if n == 0 then c :: percentEncode rest
        else if n > rest.length + 1 then percentEncode rest
        else (c :: rest.take (n - 1)).flatMap percent ++ percentEncode (rest.drop (n - 1))
termination_by s => s.length

def isDangerous (s : Bytes) : Bool :=
  let low := Bytes.lowerAscii s
  let imageData := (["data:image/png;", "data:image/gif;", "data:image/jpeg;", "data:image/webp;",
    "data:image/svg+xml;"] : List Bytes).any (Bytes.startsWith low)
  !imageData && (["javascript:", "vbscript:", "file:", "data:"] : List Bytes).any (Bytes.startsWith low)

/-- The address of a link in output; one that may run code is left out. -/
def address (s : Bytes) : Bytes :=
  if isDangerous s then [] else escape (percentEncode (resolveAddress s))

end TagLoom.Markdown

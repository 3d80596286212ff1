import TagLoom.Yaml
import TagLoom.Bytes.Quoted

/-!
# Written YAML

Values in blocks, two columns deeper at each step.  A text is written plain where it reads back as
the same text; otherwise it is put between quotes, and a text of several lines becomes a literal
block where that is possible.
-/

namespace TagLoom.Yaml

/-! ## How a text can be written -/

def isPlainCharacter (r : Nat) : Bool :=
  r == 0x0A || (0x20 ≤ r && r ≤ 0x7E) || (0xA0 ≤ r && r ≤ 0xFFFD && r != 0xFEFF)

def isBlankCharacter (r : Nat) : Bool := r == 0x20 || r == 0x09

def isLineEnd (r : Nat) : Bool := r == 0x0A || r == 0x0D || r == 0x85 || r == 0x2028 || r == 0x2029

def atBlank (rs : List Nat) : Bool := (rs.head?.map isBlankCharacter).getD true

def startsWithMark : List Nat → Bool
  | [] => false
  | r :: rest =>
      ("#,[]\x7b\x7d&*!|>'\"%@\x60".toList.map Char.toNat).contains r ||
        ((r == '?'.toNat || r == ':'.toNat || r == '-'.toNat) && atBlank rest) ||
        (r :: rest.take 2) == ("---".toList.map Char.toNat) ||
        (r :: rest.take 2) == ("...".toList.map Char.toNat)

def holdsMark (afterBlank : Bool) : List Nat → Bool
  | [] => false
  | r :: rest =>
      (r == ':'.toNat && atBlank rest) || (r == '#'.toNat && afterBlank) ||
        holdsMark (isBlankCharacter r || isLineEnd r) rest

def isBefore (p q : Nat → Bool) : List Nat → Bool
  | a :: b :: rest => (p a && q b) || isBefore p q (b :: rest)
  | _ => false

def isSpaceCharacter (r : Nat) : Bool := r == 0x20

def hasLooseEnds (rs : List Nat) : Bool :=
  let loose := fun r => isSpaceCharacter r || isLineEnd r
  (rs.head?.map loose).getD false || (rs.getLast?.map loose).getD false

def hasSpecial (rs : List Nat) : Bool := rs.any fun r => r != 0x09 && !isPlainCharacter r

/-- Whether a text can stand without quotes, as far as its characters go. -/
def allowsPlain (rs : List Nat) : Bool :=
  !(hasLooseEnds rs || hasSpecial rs || rs.contains 0x09 || rs.any isLineEnd || startsWithMark rs ||
    holdsMark true rs)

def allowsSingle (rs : List Nat) : Bool :=
  !(hasSpecial rs || rs.contains 0x09 || isBefore isLineEnd isSpaceCharacter rs ||
    isBefore isSpaceCharacter isLineEnd rs)

def allowsLiteral (rs : List Nat) : Bool :=
  !(hasSpecial rs || (rs.getLast?.map isSpaceCharacter).getD false ||
    isBefore isSpaceCharacter isLineEnd rs)

def oldBooleans : List Bytes := ["y", "Y", "yes", "Yes", "YES", "on", "On", "ON", "n", "N", "no", "No",
  "NO", "off", "Off", "OFF"]

def areSexagesimal : List Bytes → Bool
  | [] => true
  | group :: more =>
      (match group with
        | [a] => Bytes.isDigit a
        | [a, b] => '0'.toUInt8 ≤ a && a ≤ '5'.toUInt8 && Bytes.isDigit b
        | _ => false) && areSexagesimal more

def isSexagesimal (s : Bytes) : Bool :=
  let body := (Decimal.cutSign s).2
  let isDigitOr := fun c => Bytes.isDigit c || c == '_'.toUInt8
  let (whole, fraction) := match Bytes.cut? body "." with
    | some (a, b) => (a, b)
    | none => (body, [])
  match Bytes.splitByte ':'.toUInt8 whole with
  | first :: g :: groups =>
      (first.head?.map Bytes.isDigit).getD false && first.all isDigitOr && areSexagesimal (g :: groups) &&
        fraction.all isDigitOr
  | _ => false

def needsQuotes (s : Bytes) : Bool :=
  !(YamlAtom.ofPlain s).isText || oldBooleans.contains s || isSexagesimal s

/-! ## Quotes -/

def singleQuoted (s : Bytes) : Bytes := "'" ++ Bytes.replaceAll s "'" "''" ++ "'"

def escapeLetter? (r : Nat) : Option UInt8 :=
  (([(0, '0'), (7, 'a'), (8, 'b'), (9, 't'), (10, 'n'), (11, 'v'), (12, 'f'), (13, 'r'), (27, 'e'),
    (34, '"'), (92, '\\'), (0x85, 'N'), (0x2028, 'L'), (0x2029, 'P')] : List (Nat × Char)).find?
      (·.1 == r)).map (·.2.toUInt8)

def upperHex (width r : Nat) : Bytes := Bytes.upperAscii (Bytes.hex width r)

def quotedCharacter (r : Nat) : Bytes :=
  match escapeLetter? r with
  | some c => ['\\'.toUInt8, c]
  | none =>
      if isPlainCharacter r then Utf8.encode r
      else if r ≤ 0xFF then "\\x" ++ upperHex 2 r
      else if r ≤ 0xFFFF then "\\u" ++ upperHex 4 r
      else "\\U" ++ upperHex 8 r

def doubleQuoted (s : Bytes) : Bytes := "\"" ++ (Utf8.runes s).flatMap quotedCharacter ++ "\""

/-! ## Literal blocks -/

/-- The marks of a literal block: how deep it is where its first line does not show that, and what
happens to the line ends at its end. -/
def literalMarks (rs : List Nat) : Bytes :=
  Bytes.when ((rs.head?.map fun r => isSpaceCharacter r || isLineEnd r).getD false) "2" ++
  (match rs.reverse with
    | [] => "-"
    | r :: before =>
        if !isLineEnd r then "-"
        else if (before.head?.map isLineEnd).getD true then "+" else [])

def literalLines (indent : Nat) (fresh : Bool) : List Nat → Bytes
  | [] => []
  | r :: rest =>
      if isLineEnd r then Utf8.encode r ++ literalLines indent true rest
      else
        Bytes.when fresh (Bytes.fill indent 0x20) ++ Utf8.encode r ++ literalLines indent false rest

def literal (indent : Nat) (rs : List Nat) : Bytes :=
  "|" ++ literalMarks rs ++ "\n" ++ literalLines indent true rs

/-- A text; the lines of a literal block are at the given column. -/
def printText (indent : Nat) (s : Bytes) : Bytes :=
  let rs := Utf8.runes s
  if rs.contains 0x0A then (if allowsLiteral rs then literal indent rs else doubleQuoted s)
  else if needsQuotes s then doubleQuoted s
  else if allowsPlain rs then s
  else if allowsSingle rs then singleQuoted s
  else doubleQuoted s

def printKey (s : Bytes) : Bytes :=
  if (Utf8.runes s).any isLineEnd then doubleQuoted s else printText 0 s

/-! ## Blocks -/

def thenLine (s : Bytes) (indent : Nat) : Bytes :=
  (if s.getLast? == some 0x0A then s else s ++ "\n") ++ Bytes.fill indent 0x20

mutual

def printBlock (indent : Nat) : Yaml → Bytes
  | .scalar plain s => if plain then s else printText indent s
  | .sequence [] => "[]"
  | .sequence vs => printItems indent vs
  | .mapping [] => "\x7b\x7d"
  | .mapping ms => printMembers indent ms

/-- A value after its key; a block starts on a line of its own. -/
def printValue (indent : Nat) : Yaml → Bytes
  | .scalar plain s => " " ++ (if plain then s else printText indent s)
  | .sequence [] => " []"
  | .sequence vs => thenLine [] indent ++ printItems indent vs
  | .mapping [] => " \x7b\x7d"
  | .mapping ms => thenLine [] indent ++ printMembers indent ms

def printItems (indent : Nat) : List Yaml → Bytes
  | [] => []
  | [v] => "- " ++ printBlock (indent + 2) v
  | v :: vs => thenLine ("- " ++ printBlock (indent + 2) v) indent ++ printItems indent vs

def printMembers (indent : Nat) : List (Yaml × Yaml) → Bytes
  | [] => []
  | [(k, v)] => printName k ++ ":" ++ printValue (indent + 2) v
  | (k, v) :: ms =>
      thenLine (printName k ++ ":" ++ printValue (indent + 2) v) indent ++ printMembers indent ms

/-- A key; only scalars are written as keys. -/
def printName : Yaml → Bytes
  | .scalar plain s => if plain then s else printKey s
  | _ => []

end

def print (v : Yaml) : Bytes := thenLine (printBlock 0 v) 0

end TagLoom.Yaml

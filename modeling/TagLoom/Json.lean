import TagLoom.Bytes.Utf8
import TagLoom.Decimal.Read

/-!
# JSON values

Values keep the written form of their numbers and the order of their members, so
that a reader can tell `1` from `1.0` and a report can be written back as it was
built.
-/

namespace TagLoom

inductive Json where
  | null
  | bool (b : Bool)
  | number (text : Bytes)
  | string (text : Bytes)
  | array (items : List Json)
  | object (members : List (Bytes × Json))
deriving Inhabited, BEq

namespace Json

/-! ## Reading -/

def isBlank (c : UInt8) : Bool := c == 0x20 || c == 0x09 || c == 0x0A || c == 0x0D

def skipBlanks (s : Bytes) : Bytes := s.dropWhile isBlank

def hex4? : Bytes → Option (Nat × Bytes)
  | a :: b :: c :: d :: rest => (Decimal.readNat? 16 [a, b, c, d]).map (·, rest)
  | _ => none

def isHighSurrogate (r : Nat) : Bool := 0xD800 ≤ r && r < 0xDC00

def isLowSurrogate (r : Nat) : Bool := 0xDC00 ≤ r && r < 0xE000

def escaped? (c : UInt8) : Option UInt8 :=
  if c == '"'.toUInt8 || c == '\\'.toUInt8 || c == '/'.toUInt8 then some c
  else if c == 'b'.toUInt8 then some 8
  else if c == 'f'.toUInt8 then some 12
  else if c == 'n'.toUInt8 then some 10
  else if c == 'r'.toUInt8 then some 13
  else if c == 't'.toUInt8 then some 9
  else none

/-- The character of a `u` escape, a surrogate pair being one character, and the text
after it. -/
def unicodeEscape? (s : Bytes) : Option (Nat × Bytes) := do
  let (r, rest) ← hex4? s
  if isHighSurrogate r then
    match rest with
    | b :: u :: after =>
        if b == '\\'.toUInt8 && u == 'u'.toUInt8 then
          match hex4? after with
          | some (low, after) =>
              if isLowSurrogate low then
                some (0x10000 + (r - 0xD800) * 1024 + (low - 0xDC00), after)
              else some (Utf8.replacement, rest)
          | none => some (Utf8.replacement, rest)
        else some (Utf8.replacement, rest)
    | _ => some (Utf8.replacement, rest)
  else if isLowSurrogate r then some (Utf8.replacement, rest)
  else some (r, rest)

/-- The rest of a string after its opening quote, and the text after the closing
one.  The count bounds the number of characters. -/
def readString? : Nat → Bytes → Option (Bytes × Bytes)
  | 0, _ => none
  | _ + 1, [] => none
  | fuel + 1, c :: rest =>
      if c == '"'.toUInt8 then some ([], rest)
      else if c == '\\'.toUInt8 then
        match rest with
        | [] => none
        | e :: after =>
            if e == 'u'.toUInt8 then do
              let (r, after) ← unicodeEscape? after
              let (text, after) ← readString? fuel after
              some (Utf8.encode r ++ text, after)
            else do
              let b ← escaped? e
              let (text, after) ← readString? fuel after
              some (b :: text, after)
      else if c < 0x20 then none
      else do
        let (text, after) ← readString? fuel rest
        some (c :: text, after)

def isNumberByte (c : UInt8) : Bool :=
  Bytes.isDigit c || c == '-'.toUInt8 || c == '+'.toUInt8 || c == '.'.toUInt8 ||
    c == 'e'.toUInt8 || c == 'E'.toUInt8

def isNumber (s : Bytes) : Bool :=
  let s := Bytes.trimStart s "-"
  let whole := s.takeWhile Bytes.isDigit
  let rest := s.dropWhile Bytes.isDigit
  let wholeOk := !whole.isEmpty && (whole.length == 1 || whole.headD 0 != 48)
  let (fractionOk, rest) :=
    match rest with
    | c :: after =>
        if c == '.'.toUInt8 then
          (!(after.takeWhile Bytes.isDigit).isEmpty, after.dropWhile Bytes.isDigit)
        else (true, rest)
    | [] => (true, [])
  let exponentOk :=
    match rest with
    | [] => true
    | c :: after =>
        let digits := (Decimal.cutSign after).2
        Bytes.lowerByte c == 'e'.toUInt8 && !digits.isEmpty && digits.all Bytes.isDigit
  wholeOk && fractionOk && exponentOk

mutual

def readValue? : Nat → Bytes → Option (Json × Bytes)
  | 0, _ => none
  | fuel + 1, s =>
      match skipBlanks s with
      | [] => none
      | c :: rest =>
          if c == '"'.toUInt8 then
            (readString? (rest.length + 1) rest).map fun (text, after) => (.string text, after)
          else if c == '\x7b'.toUInt8 then
            match skipBlanks rest with
            | d :: after =>
                if d == '\x7d'.toUInt8 then some (.object [], after)
                else (readMembers? fuel rest).map fun (ms, after) => (.object ms, after)
            | [] => none
          else if c == '['.toUInt8 then
            match skipBlanks rest with
            | d :: after =>
                if d == ']'.toUInt8 then some (.array [], after)
                else (readItems? fuel rest).map fun (items, after) => (.array items, after)
            | [] => none
          else if Bytes.startsWith (c :: rest) "true" then some (.bool true, rest.drop 3)
          else if Bytes.startsWith (c :: rest) "false" then some (.bool false, rest.drop 4)
          else if Bytes.startsWith (c :: rest) "null" then some (.null, rest.drop 3)
          else
            let text := (c :: rest).takeWhile isNumberByte
            if isNumber text then some (.number text, (c :: rest).dropWhile isNumberByte)
            else none

def readItems? : Nat → Bytes → Option (List Json × Bytes)
  | 0, _ => none
  | fuel + 1, s => do
      let (item, rest) ← readValue? fuel s
      match skipBlanks rest with
      | c :: after =>
          if c == ']'.toUInt8 then some ([item], after)
          else if c == ','.toUInt8 then do
            let (items, after) ← readItems? fuel after
            some (item :: items, after)
          else none
      | [] => none

def readMembers? : Nat → Bytes → Option (List (Bytes × Json) × Bytes)
  | 0, _ => none
  | fuel + 1, s =>
      match skipBlanks s with
      | q :: rest =>
          if q != '"'.toUInt8 then none
          else do
            let (key, rest) ← readString? (rest.length + 1) rest
            match skipBlanks rest with
            | c :: rest =>
                if c != ':'.toUInt8 then none
                else do
                  let (value, rest) ← readValue? fuel rest
                  match skipBlanks rest with
                  | c :: after =>
                      if c == '\x7d'.toUInt8 then some ([(key, value)], after)
                      else if c == ','.toUInt8 then do
                        let (members, after) ← readMembers? fuel after
                        some ((key, value) :: members, after)
                      else none
                  | [] => none
            | [] => none
      | [] => none

end

/-- The value a text spells, blanks around it allowed. -/
def read? (s : Bytes) : Option Json := do
  let (value, rest) ← readValue? (s.length + 1) s
  if (skipBlanks rest).isEmpty then some value else none

/-! ## Access -/

def get? (j : Json) (key : Bytes) : Option Json :=
  match j with
  | .object members => (members.reverse.find? (·.1 == key)).map (·.2)
  | _ => none

end Json

end TagLoom

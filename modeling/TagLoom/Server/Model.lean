import TagLoom.Json
import TagLoom.Value
import TagLoom.Http

/-!
# Models of requests

A model comes from the query of a request, or from a JSON object in its body.  Bodies are read
more leniently than JSON asks for: a comma or a colon may stand before the object, a key may be
`null`, texts may hold line ends, numbers may start with zeros, and what follows the object is not
looked at.  A byte of zero ends a body.
-/

namespace TagLoom.RequestModel

variable {β : Type}

/-- Why a body is no model.  A byte of zero stands for the end of the body. -/
inductive BodyError where
  | noObject
  | noColon
  | noComma
  | badStart (byte : UInt8)
  | badLetter (byte : UInt8) (word : Bytes)
  | openText
  | openList
  | badKey (found : Bytes)
  | badNumber (text : Bytes) (reason : Decimal.ReadError)
deriving DecidableEq

def BodyError.message : BodyError → Bytes
  | .noObject => "expected \x7b character for map value"
  | .noColon => "expected colon after object key"
  | .noComma => "expected comma after object value"
  | .badStart c => "invalid character '" ++ Utf8.encode c.toNat ++ "' looking for beginning of value"
  | .badLetter c word =>
      "invalid character " ++ Bytes.when (c != 0) ("'" ++ Utf8.encode c.toNat ++ "' ") ++ "as " ++ word
  | .openText => "json: string unexpected end of JSON input"
  | .openList => "json: slice unexpected end of JSON input"
  | .badKey found => "json: cannot unmarshal " ++ found ++ " into Go value of type string"
  | .badNumber text reason =>
      "strconv.ParseFloat: parsing " ++ Bytes.quote text ++ ": " ++ reason.message

/-! ## Texts, words and numbers -/

/-- The value of some bytes as hexadecimal digits; a byte that is none counts as zero. -/
def looseHex (digits : Bytes) : Nat :=
  digits.foldl (fun r c => r * 16 + (Decimal.readNat? 16 [c]).getD 0) 0

/-- The character of a `u` escape whose digits start a text, and how many bytes of the text it
takes.  Two surrogates that belong together are one character; any other is replaced. -/
def unicodeEscape (s : Bytes) : Nat × Nat :=
  let r := looseHex (s.take 4)
  let low := looseHex ((s.drop 6).take 4)
  let paired := s.length > 10 && Bytes.startsWith (s.drop 4) "\\u"
  if paired && Json.isHighSurrogate r && Json.isLowSurrogate low then
    (0x10000 + (r - 0xD800) * 1024 + (low - 0xDC00), 10)
  else if Json.isHighSurrogate r || Json.isLowSurrogate r then (Utf8.replacement, 4)
  else (r, 4)

def escapeName : Bytes := "escaped string"

/-- A text after its opening quote, and what follows its closing one. -/
def readText : Bytes → Except BodyError (Bytes × Bytes)
  | [] => .error .openText
  | [c] =>
      if c == '"'.toUInt8 then .ok ([], [])
      else if c == '\\'.toUInt8 then .error (.badLetter 0 escapeName)
      else .error .openText
  | c :: e :: rest =>
      if c == '"'.toUInt8 then .ok ([], e :: rest)
      else if c == '\\'.toUInt8 then
        if e == 'u'.toUInt8 then
          if rest.length < 5 then .error (.badLetter e escapeName)
          else do
            let (r, size) := unicodeEscape rest
            let (text, after) ← readText (rest.drop size)
            return (Utf8.encode r ++ text, after)
        else
          match Json.escaped? e with
          | some b => do
              let (text, after) ← readText rest
              return (b :: text, after)
          | none => .error .openText
      else do
        let (text, after) ← readText (e :: rest)
        return (c :: text, after)
termination_by s => s.length
decreasing_by
  all_goals
    simp only [List.length_drop, List.length_cons]
    omega

/-- What follows the letters of a word.  The end of a body may cut off the last of them. -/
def readLetters (name : Bytes) : Bytes → Bytes → Except BodyError Bytes
  | [], s => .ok s
  | [_], [] => .ok []
  | _ :: _, [] => .error (.badLetter 0 name)
  | l :: ls, c :: s => if c == l then readLetters name ls s else .error (.badLetter c name)

def readNull (s : Bytes) : Except BodyError Bytes := readLetters "null" "null" s

def startsNumber (c : UInt8) : Bool := Bytes.isDigit c || c == '-'.toUInt8

def readNumber (s : Bytes) : Except BodyError (Float × Bytes) :=
  let text := s.takeWhile Json.isNumberByte
  match Decimal.readFloat text with
  | .ok f => .ok (f, s.dropWhile Json.isNumberByte)
  | .error e => .error (.badNumber text e)

def readKey (s : Bytes) : Except BodyError (Bytes × Bytes) :=
  match Json.skipBlanks s with
  | [] => .error (.badStart 0)
  | c :: rest =>
      if c == '"'.toUInt8 then readText rest
      else if c == 'n'.toUInt8 then do return ([], ← readNull (c :: rest))
      else if c == '['.toUInt8 then .error (.badKey "array")
      else if c == '\x7b'.toUInt8 then .error (.badKey "object")
      else if startsNumber c then .error (.badKey "number")
      else .error (.badStart c)

/-! ## Values -/

def lastOfEach (env : Env β) : Env β :=
  env.foldl (fun acc (k, v) => acc.filter (·.1 != k) ++ [(k, v)]) []

mutual

def readValue : Nat → Bytes → Except BodyError (Value β × Bytes)
  | 0, _ => .error (.badStart 0)
  | fuel + 1, s =>
      match Json.skipBlanks s with
      | [] => .error (.badStart 0)
      | c :: rest =>
          if c == '\x7b'.toUInt8 then do
            let (entries, after) ← readRecord fuel rest
            return (.record entries, after)
          else if c == '['.toUInt8 then
            let rest := Json.skipBlanks rest
            if rest.head? == some ']'.toUInt8 then .ok (.list .values [], rest.drop 1)
            else do
              let (items, after) ← readItems fuel rest
              return (.list .values items, after)
          else if c == '"'.toUInt8 then do
            let (text, after) ← readText rest
            return (.text text, after)
          else if startsNumber c then do
            let (f, after) ← readNumber (c :: rest)
            return (.float f, after)
          else if c == 't'.toUInt8 then do
            return (.bool true, ← readLetters "bool(true)" "true" (c :: rest))
          else if c == 'f'.toUInt8 then do
            return (.bool false, ← readLetters "bool(false)" "false" (c :: rest))
          else if c == 'n'.toUInt8 then do
            return (.nil, ← readNull (c :: rest))
          else .error (.badStart c)

def readItems : Nat → Bytes → Except BodyError (List (Value β) × Bytes)
  | 0, _ => .error .openList
  | fuel + 1, s => do
      let (item, rest) ← readValue fuel s
      let rest := Json.skipBlanks rest
      if rest.head? == some ']'.toUInt8 then return ([item], rest.drop 1)
      else if rest.head? == some ','.toUInt8 then
        let (items, after) ← readItems fuel (rest.drop 1)
        return (item :: items, after)
      else throw .openList

/-- The entries of an object after its opening brace; of several under one key the last counts. -/
def readRecord : Nat → Bytes → Except BodyError (Env β × Bytes)
  | 0, _ => .error (.badStart 0)
  | fuel + 1, s =>
      let s := Json.skipBlanks s
      if s.head? == some '\x7d'.toUInt8 then .ok ([], s.drop 1)
      else do
        let (entries, after) ← readEntries fuel s
        return (lastOfEach entries, after)

def readEntries : Nat → Bytes → Except BodyError (Env β × Bytes)
  | 0, _ => .error (.badStart 0)
  | fuel + 1, s => do
      let (key, rest) ← readKey s
      let rest := Json.skipBlanks rest
      if rest.head? != some ':'.toUInt8 then throw .noColon
      let (value, rest) ← readValue fuel (rest.drop 1)
      let rest := Json.skipBlanks rest
      if rest.head? == some '\x7d'.toUInt8 then return ([(key, value)], rest.drop 1)
      else if rest.head? == some ','.toUInt8 then
        let (entries, after) ← readEntries fuel (rest.drop 1)
        return ((key, value) :: entries, after)
      else throw .noComma

end

/-! ## Models -/

def dropSeparator : Bytes → Bytes
  | c :: rest => if c == ','.toUInt8 || c == ':'.toUInt8 then rest else c :: rest
  | [] => []

/-- The model in a body; an empty body holds an empty model, and so does `null`. -/
def ofBody (body : Bytes) : Except BodyError (Env β) :=
  let s := Json.skipBlanks (body.takeWhile (· != 0))
  if s.isEmpty then .ok []
  else
    match Json.skipBlanks (dropSeparator s) with
    | [] => .error .noObject
    | c :: rest =>
        if c == 'n'.toUInt8 then do
          let _ ← readNull (c :: rest)
          return []
        else if c == '\x7b'.toUInt8 then do return (← readRecord (2 * rest.length + 2) rest).1
        else .error .noObject

/-- The model in a query: a name with one value is a text, with several a list. -/
def ofQuery (query : Bytes) : Env β :=
  (Http.grouped (Http.pairs query)).map fun (name, values) =>
    (name, match values with
      | [v] => .text v
      | vs => .list .values (vs.map .text))

end TagLoom.RequestModel

import TagLoom.Pattern
import TagLoom.Unicode.Category
import TagLoom.Unicode.Script

/-!
# Reading patterns

A pattern is read from left to right.  Groups that are still open are kept on a stack, each with
the options that hold again after it; an option set inside a group holds up to the end of the
group, over its alternatives too.
-/

/-! ## Classes of characters with names

The classes a pattern may name: by a letter such as `\d`, by a word in brackets such as `[:alpha:]`,
and by a general category or a script. -/

namespace TagLoom.RuneClass

def digits : List (Nat × Nat) := [(0x30, 0x39)]

def blanks : List (Nat × Nat) := [(0x09, 0x0A), (0x0C, 0x0D), (0x20, 0x20)]

def wordRunes : List (Nat × Nat) := [(0x30, 0x39), (0x41, 0x5A), (0x5F, 0x5F), (0x61, 0x7A)]

def ofLetter? (letter : Nat) : Option (Bool × List (Nat × Nat)) :=
  if letter == 'd'.toNat then some (false, digits)
  else if letter == 'D'.toNat then some (true, digits)
  else if letter == 's'.toNat then some (false, blanks)
  else if letter == 'S'.toNat then some (true, blanks)
  else if letter == 'w'.toNat then some (false, wordRunes)
  else if letter == 'W'.toNat then some (true, wordRunes)
  else none

def bracketed : List (Bytes × List (Nat × Nat)) := [
  ("alnum", [(0x30, 0x39), (0x41, 0x5A), (0x61, 0x7A)]),
  ("alpha", [(0x41, 0x5A), (0x61, 0x7A)]),
  ("ascii", [(0x00, 0x7F)]),
  ("blank", [(0x09, 0x09), (0x20, 0x20)]),
  ("cntrl", [(0x00, 0x1F), (0x7F, 0x7F)]),
  ("digit", digits),
  ("graph", [(0x21, 0x7E)]),
  ("lower", [(0x61, 0x7A)]),
  ("print", [(0x20, 0x7E)]),
  ("punct", [(0x21, 0x2F), (0x3A, 0x40), (0x5B, 0x60), (0x7B, 0x7E)]),
  ("space", [(0x09, 0x0D), (0x20, 0x20)]),
  ("upper", [(0x41, 0x5A)]),
  ("word", wordRunes),
  ("xdigit", [(0x30, 0x39), (0x41, 0x46), (0x61, 0x66)])]

/-- The ranges a word in brackets names; after a caret, those outside of them. -/
def ofWord? (word : Bytes) : Option (Bool × List (Nat × Nat)) :=
  let (negated, word) :=
    match word with
    | c :: rest => if c == '^'.toUInt8 then (true, rest) else (false, word)
    | [] => (false, [])
  (bracketed.find? (·.1 == word)).map fun e => (negated, e.2)

/-- A name as names are compared: without underscores, hyphens and blanks, with a capital first
and small letters after it. -/
def canonical (name : Bytes) : Bytes :=
  match name.filter fun c => !(Bytes.ofString "_- ").contains c with
  | [] => []
  | c :: rest => Bytes.upperByte c :: Bytes.lowerAscii rest

def category? (name : Bytes) : Option (List (Nat × Nat)) :=
  let same (s : String) : Bool := canonical (Bytes.ofString s) == name
  match (Unicode.categoryTexts.map (·.1) ++ ["C", "L", "LC", "M", "N", "P", "S", "Z"]).find? same with
  | some s => Unicode.categoryRanges? s
  | none => (Unicode.categoryAliases.find? fun a => same a.1).bind fun a => Unicode.categoryRanges? a.2

def script? (name : Bytes) : Option (List (Nat × Nat)) :=
  (Unicode.scriptTexts.find? fun s => canonical (Bytes.ofString s.1) == name).map fun s =>
    Unicode.rangesOfText s.2

def ofProperty? (name : Bytes) : Option (Bool × List (Nat × Nat)) :=
  let name := canonical name
  if name == Bytes.ofString "Any" then some (false, [(0, 0x10FFFF)])
  else if name == Bytes.ofString "Ascii" then some (false, [(0, 0x7F)])
  else if name == Bytes.ofString "Assigned" then (Unicode.categoryRanges? "Cn").map fun rs => (true, rs)
  else ((category? name).or (script? name)).map fun rs => (false, rs)

end TagLoom.RuneClass

namespace TagLoom

/-! ## Refusals -/

/-- Why a text is no pattern; the text quoted in the message goes with it. -/
inductive PatternError where
  | missingBracket (text : Bytes)
  | missingParen (text : Bytes)
  | unexpectedParen (text : Bytes)
  | missingOperand (text : Bytes)
  | doubleRepeat (text : Bytes)
  | badRange (text : Bytes)
  | badEscape (text : Bytes)
  | badGroup (text : Bytes)
  | badGroupName (text : Bytes)
  | badRepeatSize (text : Bytes)
  | tooDeep (text : Bytes)
  | badEncoding (text : Bytes)
  | trailingBackslash
deriving DecidableEq

namespace PatternError

def reason : PatternError → Bytes × Bytes
  | .missingBracket s => ("missing closing ]", s)
  | .missingParen s => ("missing closing )", s)
  | .unexpectedParen s => ("unexpected )", s)
  | .missingOperand s => ("missing argument to repetition operator", s)
  | .doubleRepeat s => ("invalid nested repetition operator", s)
  | .badRange s => ("invalid character class range", s)
  | .badEscape s => ("invalid escape sequence", s)
  | .badGroup s => ("invalid or unsupported Perl syntax", s)
  | .badGroupName s => ("invalid named capture", s)
  | .badRepeatSize s => ("invalid repeat count", s)
  | .tooDeep s => ("expression nests too deeply", s)
  | .badEncoding s => ("invalid UTF-8", s)
  | .trailingBackslash => ("trailing backslash at end of expression", [])

def message (e : PatternError) : Bytes :=
  let (why, text) := e.reason
  "error parsing regexp: " ++ why ++ ": \x60" ++ text ++ "\x60"

end PatternError

namespace Pattern.Reading

/-! ## Cells of a pattern -/

open Utf8 (Cell)

structure Options where
  foldCase : Bool
  multiLine : Bool
  dotAll : Bool
deriving DecidableEq

abbrev Result := Except PatternError

def spell (cs : List Cell) : Bytes := (cs.map (·.spelled)).flatten

def readOf (text rest : List Cell) : Bytes := spell (text.take (text.length - rest.length))

def isRune (c : Cell) (char : Char) : Bool := c.rune == char.toNat

def startsWithRune (char : Char) : List Cell → Bool
  | c :: _ => isRune c char
  | [] => false

def isBadByte (c : Cell) : Bool := c.rune == 0xFFFD && c.spelled.length == 1

/-- Refuses bytes that are no characters, quoting the text from the first of them on. -/
def requireEncoded : List Cell → Result Unit
  | [] => .ok ()
  | c :: rest => if isBadByte c then .error (.badEncoding (spell (c :: rest))) else requireEncoded rest

/-- The next character; past the end there is one that nothing expects. -/
def nextRune : List Cell → Result (Nat × List Cell)
  | [] => .ok (0xFFFD, [])
  | c :: rest => if isBadByte c then .error (.badEncoding (spell (c :: rest))) else .ok (c.rune, rest)

/-! ## Escapes -/

def isOctal (c : Cell) : Bool := '0'.toNat ≤ c.rune && c.rune ≤ '7'.toNat

def hexValue? (r : Nat) : Option Nat :=
  if '0'.toNat ≤ r && r ≤ '9'.toNat then some (r - 48)
  else if 'a'.toNat ≤ r && r ≤ 'f'.toNat then some (r - 87)
  else if 'A'.toNat ≤ r && r ≤ 'F'.toNat then some (r - 55)
  else none

def isAsciiWord (r : Nat) : Bool := Unicode.inRanges [(0x30, 0x39), (0x41, 0x5A), (0x61, 0x7A)] r

/-- The code point between braces after `\x`; `count` digits were read before.  A refusal comes with
the text that is left. -/
def bracedHex (value count : Nat) : List Cell → Except (List Cell) (Nat × List Cell)
  | [] => .error []
  | c :: rest =>
      if isRune c '\x7d' then if count == 0 then .error rest else .ok (value, rest)
      else match hexValue? c.rune with
        | none => .error rest
        | some d =>
            let value := value * 16 + d
            if value > 0x10FFFF then .error rest else bracedHex value (count + 1) rest

/-- The character after a backslash, if it stands for itself or is a control character. -/
def plainEscape? (r : Nat) : Option Nat :=
  if r < 0x80 && !isAsciiWord r then some r
  else if r == 'a'.toNat then some 7
  else if r == 'f'.toNat then some 12
  else if r == 'n'.toNat then some 10
  else if r == 'r'.toNat then some 13
  else if r == 't'.toNat then some 9
  else if r == 'v'.toNat then some 11
  else none

def escape (text : List Cell) : Result (Nat × List Cell) := do
  if (text.drop 1).isEmpty then throw .trailingBackslash
  let (r, rest) ← nextRune (text.drop 1)
  let refuse (rest : List Cell) : Result (Nat × List Cell) := .error (.badEscape (readOf text rest))
  if '0'.toNat ≤ r && r ≤ '7'.toNat then
    if r != '0'.toNat && !((rest.head?.map isOctal).getD false) then refuse rest
    else
      let more := (rest.take 2).takeWhile isOctal
      let value := more.foldl (fun n c => n * 8 + (c.rune - 48)) (r - 48)
      return (value, rest.drop more.length)
  else if r == 'x'.toNat then
    if rest.isEmpty then refuse rest
    else
      let (c, rest) ← nextRune rest
      if c == '\x7b'.toNat then
        match bracedHex 0 0 rest with
        | .ok found => return found
        | .error rest =>
            requireEncoded (text.take (text.length - rest.length))
            refuse rest
      else
        let (d, rest) ← nextRune rest
        match hexValue? c, hexValue? d with
        | some x, some y => return (x * 16 + y, rest)
        | _, _ => refuse rest
  else match plainEscape? r with
    | some c => return (c, rest)
    | none => refuse rest

/-! ## Classes -/

def classOf (options : Options) (found : Bool × List (Nat × Nat)) : RuneClass :=
  ⟨found.1, options.foldCase, found.2⟩

def rangeClass (options : Options) (low high : Nat) : RuneClass :=
  ⟨false, options.foldCase, [(low, high)]⟩

def letterClass? (options : Options) : List Cell → Option (RuneClass × List Cell)
  | b :: c :: rest =>
      if isRune b '\\' then (RuneClass.ofLetter? c.rune).map fun f => (classOf options f, rest) else none
  | _ => none

/-- A class by a property, `\pN` or `\p{Greek}`; `\P` and a caret each turn it around. -/
def propertyClass? (options : Options) (text : List Cell) : Result (Option (RuneClass × List Cell)) :=
  match text with
  | b :: p :: rest =>
      if isRune b '\\' && (isRune p 'p' || isRune p 'P') then do
        let (c, after) ← nextRune rest
        let (name, after) ←
          if c == '\x7b'.toNat then do
            let named := (rest.drop 1).takeWhile fun c => !isRune c '\x7d'
            let after := rest.drop (named.length + 1)
            if after.isEmpty then
              requireEncoded text
              throw (.badRange (spell text))
            requireEncoded named
            pure (spell named, after.drop 1)
          else pure (spell (rest.take (rest.length - after.length)), after)
        let (turned, name) :=
          match name with
          | c :: more => if c == '^'.toUInt8 then (true, more) else (false, name)
          | [] => (false, [])
        match RuneClass.ofProperty? name with
        | some (negated, ranges) =>
            return some (classOf options (negated != (turned != isRune p 'P'), ranges), after)
        | none => throw (.badRange (readOf text after))
      else .ok none
  | _ => .ok none

def bracketWord? : List Cell → Option (List Cell × List Cell)
  | [] => none
  | c :: rest =>
      if isRune c ':' && startsWithRune ']' rest then some ([], rest.drop 1)
      else (bracketWord? rest).map fun (w, after) => (c :: w, after)

def wordClass? (options : Options) (text : List Cell) : Result (Option (RuneClass × List Cell)) :=
  if startsWithRune '[' text && startsWithRune ':' (text.drop 1) then
    match bracketWord? (text.drop 2) with
    | none => .ok none
    | some (word, rest) =>
        match RuneClass.ofWord? (spell word) with
        | some found => .ok (some (classOf options found, rest))
        | none => .error (.badRange (readOf text rest))
  else .ok none

def setRune (whole : List Cell) (text : List Cell) : Result (Nat × List Cell) :=
  if text.isEmpty then .error (.missingBracket (spell whole))
  else if startsWithRune '\\' text then escape text
  else nextRune text

def setClass (options : Options) (whole text : List Cell) : Result (RuneClass × List Cell) := do
  if let some found ← wordClass? options text then return found
  if let some found ← propertyClass? options text then return found
  if let some found := letterClass? options text then return found
  let (low, rest) ← setRune whole text
  if startsWithRune '-' rest && rest.length ≥ 2 && !startsWithRune ']' (rest.drop 1) then
    let (high, rest) ← setRune whole (rest.drop 1)
    if high < low then throw (.badRange (readOf text rest))
    return (rangeClass options low high, rest)
  else return (rangeClass options low low, rest)

/-- The classes of a bracketed set up to its closing bracket, which may also be the first
character of the set. -/
def setClasses (options : Options) (whole : List Cell) :
    Nat → Bool → List Cell → Result (List RuneClass × List Cell)
  | 0, _, _ => .error (.missingBracket (spell whole))
  | fuel + 1, first, text => do
      if startsWithRune ']' text && !first then return ([], text.drop 1)
      let (c, rest) ← setClass options whole text
      let (more, rest) ← setClasses options whole fuel false rest
      return (c :: more, rest)

def bracketSet (options : Options) (text : List Cell) : Result (Pattern × List Cell) := do
  let negated := startsWithRune '^' (text.drop 1)
  let items := text.drop (if negated then 2 else 1)
  let (classes, rest) ← setClasses options text (items.length + 1) true items
  return (.runes ⟨negated, classes⟩, rest)

/-! ## Counts -/

/-- A count without needless zeros; one too large to be kept is larger than any that is allowed. -/
def count? (text : List Cell) : Option (Nat × List Cell) :=
  let isDigit (c : Cell) : Bool := '0'.toNat ≤ c.rune && c.rune ≤ '9'.toNat
  let digits := text.takeWhile isDigit
  if digits.isEmpty || (digits.length > 1 && startsWithRune '0' digits) then none
  else some (digits.foldl (fun n c => n * 10 + (c.rune - 48)) 0, text.drop digits.length)

def counts? (text : List Cell) : Option ((Nat × Option Nat) × List Cell) := do
  let (least, rest) ← count? text
  let (most, rest) ←
    if startsWithRune ',' rest then
      if startsWithRune '\x7d' (rest.drop 1) then some (none, rest.drop 1)
      else (count? (rest.drop 1)).map fun (m, rest) => (some m, rest)
    else some (some least, rest)
  if startsWithRune '\x7d' rest then some ((least, most), rest.drop 1) else none

/-- The repetition operator at the start of a text: its counts, whether they stand in braces, and
the rest. -/
def repetition? (text : List Cell) : Option ((Nat × Option Nat) × Bool × List Cell) :=
  if startsWithRune '*' text then some ((0, none), false, text.drop 1)
  else if startsWithRune '+' text then some ((1, none), false, text.drop 1)
  else if startsWithRune '?' text then some ((0, some 1), false, text.drop 1)
  else if startsWithRune '\x7b' text then
    (counts? (text.drop 1)).map fun (counts, rest) => (counts, true, rest)
  else none

/-- Most times a counted repetition may ask for, those inside it multiplied in. -/
def maxCount : Nat := 1000

def copiesFit : Nat → Pattern → Bool
  | n, .seq p q | n, .alt p q => copiesFit n p && copiesFit n q
  | n, .repeated p least most =>
      let m := most.getD least
      most == some 0 || (m ≤ n && copiesFit (if m > 0 then n / m else n) p)
  | n, .group p => copiesFit n p
  | _, _ => true

/-! ## Nesting -/

def maxHeight : Nat := 1000

def isPlainRun : Pattern → Bool
  | .runes ⟨false, [⟨false, _, [(low, high)]⟩]⟩ => low == high
  | .seq p q => isPlainRun p && isPlainRun q
  | _ => false

/-- How deep the parts of a pattern nest.  Parts in a row are all on one level, and so are
alternatives; a run of plain characters is a single part. -/
def height : Pattern → Nat
  | .seq p q =>
      if isPlainRun p && isPlainRun q then 1
      else
        let below (r : Pattern) (n : Nat) : Nat :=
          match r with
          | .seq _ _ => if isPlainRun r then n + 1 else n
          | _ => n + 1
        max (below p (height p)) (below q (height q))
  | .alt p q =>
      let below (r : Pattern) (n : Nat) : Nat :=
        match r with
        | .alt _ _ => n
        | _ => n + 1
      max (below p (height p)) (below q (height q))
  | .repeated p _ _ | .group p => height p + 1
  | _ => 1

/-- Refuses a part that nests too deeply; a part is never deeper than its text is long. -/
def requireShallow (whole : List Cell) (p : Pattern) : Result Unit :=
  if whole.length < maxHeight || height p ≤ maxHeight then .ok ()
  else .error (.tooDeep (spell whole))

/-! ## The reader -/

/-- A group that is open: whether it is kept as a group, the options that hold after it, what
stands before it, last part first, and the alternatives before that. -/
structure Frame where
  kept : Bool
  options : Options
  parts : List Pattern
  branches : List Pattern

/-- What was read: the options in force, the parts of the current alternative, last first, the
alternatives before it, the open groups, and the text of the repetition that was read last. -/
structure ReadState where
  options : Options
  parts : List Pattern
  branches : List Pattern
  frames : List Frame
  lastRepeat : Option (List Cell)

def sequenceOf : List Pattern → Pattern
  | [] => .empty
  | [p] => p
  | p :: ps => .seq (sequenceOf ps) p

def ReadState.whole (st : ReadState) : Pattern :=
  st.branches.foldl (fun p b => .alt b p) (sequenceOf st.parts)

def ReadState.push (st : ReadState) (p : Pattern) : ReadState :=
  { st with parts := p :: st.parts, lastRepeat := none }

def ReadState.open_ (st : ReadState) (kept : Bool) (options : Options) : ReadState :=
  ⟨options, [], [], ⟨kept, st.options, st.parts, st.branches⟩ :: st.frames, none⟩

def ReadState.close? (st : ReadState) : Option ReadState :=
  match st.frames with
  | [] => none
  | f :: frames =>
      let p := if f.kept then .group st.whole else st.whole
      some ⟨f.options, p :: f.parts, f.branches, frames, none⟩

/-- The options after `(?` up to a colon or a parenthesis; the flag tells whether a group opens.
A refusal comes with the text that is left. -/
def groupOptions (now : Options) (on seen : Bool) :
    List Cell → Except (List Cell) (Options × Bool × List Cell)
  | [] => .error []
  | c :: rest =>
      if isRune c 'i' then groupOptions { now with foldCase := on } on true rest
      else if isRune c 'm' then groupOptions { now with multiLine := on } on true rest
      else if isRune c 's' then groupOptions { now with dotAll := on } on true rest
      else if isRune c 'U' then groupOptions now on true rest
      else if isRune c '-' then if on then groupOptions now false false rest else .error rest
      else if isRune c ':' || isRune c ')' then
        if !on && !seen then .error rest else .ok (now, isRune c ':', rest)
      else .error rest

def groupName? (text : List Cell) : Option (List Cell) :=
  if startsWithRune 'P' (text.drop 2) && startsWithRune '<' (text.drop 3) && text.length > 4 then
    some (text.drop 4)
  else if startsWithRune '<' (text.drop 2) && text.length > 3 then some (text.drop 3)
  else none

def extendedGroup (st : ReadState) (text : List Cell) : Result (ReadState × List Cell) := do
  match groupName? text with
  | some named =>
      let name := named.takeWhile fun c => !isRune c '>'
      let rest := named.drop name.length
      if rest.isEmpty then
        requireEncoded text
        throw (.badGroupName (spell text))
      requireEncoded name
      if name.isEmpty || !(name.all fun c => isAsciiWord c.rune || isRune c '_') then
        throw (.badGroupName (readOf text (rest.drop 1)))
      return (st.open_ true st.options, rest.drop 1)
  | none =>
      match groupOptions st.options true false (text.drop 2) with
      | .ok (options, true, rest) => return (st.open_ false options, rest)
      | .ok (options, false, rest) => return ({ st with options := options, lastRepeat := none }, rest)
      | .error rest =>
          requireEncoded (text.take (text.length - rest.length))
          throw (.badGroup (readOf text rest))

def repeatLast (whole : List Cell) (st : ReadState) (text : List Cell) (counts : Nat × Option Nat) (braced : Bool)
    (rest : List Cell) : Result (ReadState × List Cell) := do
  let (least, most) := counts
  if braced && (least > maxCount || most.any fun m => m > maxCount || m < least) then
    throw (.badRepeatSize (readOf text rest))
  let rest := if startsWithRune '?' rest then rest.drop 1 else rest
  if let some before := st.lastRepeat then throw (.doubleRepeat (readOf before rest))
  match st.parts with
  | [] => throw (.missingOperand (readOf text rest))
  | p :: parts =>
      let copies := Pattern.repeated p least most
      requireShallow whole copies
      if braced && (least ≥ 2 || most.any (· ≥ 2)) && !copiesFit maxCount copies then
        throw (.badRepeatSize (readOf text rest))
      return ({ st with parts := copies :: parts, lastRepeat := some text }, rest)

def quoted : List Cell → List Cell × List Cell
  | [] => ([], [])
  | c :: rest =>
      if isRune c '\\' && startsWithRune 'E' rest then ([], rest.drop 1)
      else
        let (q, after) := quoted rest
        (c :: q, after)

def literal (options : Options) (r : Nat) : Pattern := .runes ⟨false, [rangeClass options r r]⟩

/-- What an escape outside of sets matches; `text` starts at its backslash. -/
def escapedPattern (options : Options) (text : List Cell) : Result (Pattern × List Cell) := do
  let at_ (char : Char) : Bool := startsWithRune char (text.drop 1)
  if at_ 'A' then return (.textStart, text.drop 2)
  if at_ 'b' then return (.wordEdge false, text.drop 2)
  if at_ 'B' then return (.wordEdge true, text.drop 2)
  if at_ 'z' then return (.textEnd, text.drop 2)
  if at_ 'C' then throw (.badEscape (spell (text.take 2)))
  if let some (c, rest) ← propertyClass? options text then return (.runes ⟨false, [c]⟩, rest)
  if let some (c, rest) := letterClass? options text then return (.runes ⟨false, [c]⟩, rest)
  let (r, rest) ← escape text
  return (literal options r, rest)

def readOne (whole : List Cell) (st : ReadState) (c : Cell) (rest : List Cell) :
    Result (ReadState × List Cell) := do
  let text := c :: rest
  if isRune c '(' then
    if startsWithRune '?' rest then extendedGroup st text else return (st.open_ true st.options, rest)
  else if isRune c '|' then
    return ({ st with parts := [], branches := sequenceOf st.parts :: st.branches, lastRepeat := none },
      rest)
  else if isRune c ')' then
    match st.close? with
    | some st =>
        (st.parts.take 1).forM (requireShallow whole)
        return (st, rest)
    | none => throw (.unexpectedParen (spell whole))
  else if isRune c '^' then
    return (st.push (if st.options.multiLine then .lineStart else .textStart), rest)
  else if isRune c '$' then
    return (st.push (if st.options.multiLine then .lineEnd else .textEnd), rest)
  else if isRune c '.' then
    let excluded := if st.options.dotAll then [] else [(10, 10)]
    return (st.push (.runes ⟨true, [⟨false, false, excluded⟩]⟩), rest)
  else if isRune c '[' then
    let (p, rest) ← bracketSet st.options text
    return (st.push p, rest)
  else if isRune c '\\' then
    if startsWithRune 'Q' rest then
      let (inside, rest) := quoted (rest.drop 1)
      requireEncoded inside
      let st := { st with lastRepeat := none }
      return (inside.foldl (fun st c => st.push (literal st.options c.rune)) st, rest)
    else
      let (p, rest) ← escapedPattern st.options text
      return (st.push p, rest)
  else match repetition? text with
    | some (counts, braced, rest) => repeatLast whole st text counts braced rest
    | none =>
        let (r, rest) ← nextRune text
        return (st.push (literal st.options r), rest)

/-- Reads a text to its end; the count bounds the steps. -/
def readFrom (whole : List Cell) : Nat → ReadState → List Cell → Result ReadState
  | _, st, [] => .ok st
  | 0, st, _ => .ok st
  | fuel + 1, st, c :: rest => do
      let (st, rest) ← readOne whole st c rest
      readFrom whole fuel st rest

def readAll (text : List Cell) : Result Pattern := do
  let st ← readFrom text text.length ⟨⟨false, false, false⟩, [], [], [], none⟩ text
  requireShallow text st.whole
  if st.frames.isEmpty then return st.whole else throw (.missingParen (spell text))

end Pattern.Reading

namespace Pattern

def parse (s : Bytes) : Except PatternError Pattern := Reading.readAll (Utf8.cells s)

end Pattern

end TagLoom

import TagLoom.Entity

/-!
# Tokens of markup

Markup cut into text and tags.  Character references in text and in values stand for their
characters, also where they are not written well.
-/

namespace TagLoom.Sanitizer

/-- A token: text, a start tag, an end tag, or something left out. -/
inductive Token where
  | text (s : Bytes)
  | start (name : Bytes) (attrs : List (Bytes × Bytes)) (selfClosing : Bool)
  | stop (name : Bytes)
  | comment

def isBlank (c : UInt8) : Bool := c == 32 || c == 9 || c == 10 || c == 12 || c == 13

/-! ## Character references -/

def oldCharacters : List Utf8.Rune := [
  0x20AC, 0x81, 0x201A, 0x192, 0x201E, 0x2026, 0x2020, 0x2021, 0x2C6, 0x2030, 0x160, 0x2039, 0x152,
  0x8D, 0x17D, 0x8F, 0x90, 0x2018, 0x2019, 0x201C, 0x201D, 0x2022, 0x2013, 0x2014, 0x2DC, 0x2122,
  0x161, 0x203A, 0x153, 0x9D, 0x17E, 0x178]

def digitValue? (base : Nat) (c : UInt8) : Option Nat :=
  let low := Bytes.lowerByte c
  if Bytes.isDigit c then some (c.toNat - 48)
  else if base == 16 && 97 ≤ low && low ≤ 102 then some (low.toNat - 87)
  else none

def readNumber (base : Nat) : Nat → Nat → Bytes → Nat × Nat
  | value, n, [] => (value, n)
  | value, n, c :: rest =>
      match digitValue? base c with
      | some d => readNumber base ((value * base + d) % 0x100000000) (n + 1) rest
      | none => (value, n)

def numbered (n : Nat) : Utf8.Rune :=
  if 0x80 ≤ n && n ≤ 0x9F then oldCharacters.getD (n - 0x80) n
  else if n == 0 || Utf8.isSurrogate n || n > 0x10FFFF then Utf8.replacement
  else n

/-- The character of a numeric reference and the bytes it takes, its ampersand included.  It takes
four bytes at least. -/
def numericReference? (s : Bytes) : Option (Bytes × Nat) :=
  let isHex := (s.drop 2).head?.any fun c => c == 'x'.toUInt8 || c == 'X'.toUInt8
  let start := if isHex then 3 else 2
  let (value, digits) := readNumber (if isHex then 16 else 10) 0 0 (s.drop start)
  let stop := start + digits
  let stop := if (s.drop stop).head? == some ';'.toUInt8 then stop + 1 else stop
  if s.length ≤ 3 || stop ≤ 3 then none else some (Utf8.encode (numbered value), stop)

/-- The longest start of a name, of two bytes at least, that names a character without a semicolon,
and its length. -/
def bareReference? (name : Bytes) : Nat → Option (Bytes × Nat)
  | 0 | 1 => none
  | n + 1 =>
      match Entity.findBare? (name.take (n + 1)) with
      | some runes => some (Utf8.ofRunes runes, n + 2)
      | none => bareReference? name n

/-- The characters of a named reference and the bytes it takes, its ampersand included.  In a value
a name that is not closed counts only as a whole, and not before an equals sign. -/
def namedReference? (inValue : Bool) (s : Bytes) : Option (Bytes × Nat) :=
  let name := (s.drop 1).takeWhile fun c => Bytes.isLetter c || Bytes.isDigit c
  let after := s.drop (name.length + 1)
  let closed := after.head? == some ';'.toUInt8
  let whole := if closed then Entity.find? name else Entity.findBare? name
  if name.isEmpty || (inValue && !closed && after.head? == some '='.toUInt8) then none
  else match whole with
    | some runes => some (Utf8.ofRunes runes, name.length + (if closed then 2 else 1))
    | none =>
        if inValue then none
        else bareReference? name (min (if closed then name.length else name.length - 1) Entity.longestBare)

/-- A text with its character references resolved; the bound is the length of the text. -/
def unescapeWithin (inValue : Bool) : Nat → Bytes → Bytes
  | 0, s => s
  | _ + 1, [] => []
  | fuel + 1, c :: rest =>
      let s := c :: rest
      let found := if c != '&'.toUInt8 then none
        else if rest.head? == some '#'.toUInt8 then numericReference? s
        else namedReference? inValue s
      match found with
      | some (text, n) => text ++ unescapeWithin inValue fuel (s.drop n)
      | none => c :: unescapeWithin inValue fuel rest

def unescape (inValue : Bool) (s : Bytes) : Bytes := unescapeWithin inValue (s.length + 1) s

def plainLines : Bytes → Bytes
  | 13 :: 10 :: rest => 10 :: plainLines rest
  | 13 :: rest => 10 :: plainLines rest
  | c :: rest => c :: plainLines rest
  | [] => []

/-! ## Tags -/

/-- Value of an attribute after its equals sign, and the text after it. -/
def attrValue (s : Bytes) : Bytes × Bytes :=
  let s := s.dropWhile isBlank
  match s with
  | q :: rest =>
      if q == 34 || q == 39 then
        match Bytes.cut? rest [q] with
        | some (v, after) => (v, after)
        | none => (rest, [])
      else (s.takeWhile fun c => !isBlank c && c != 62, s.dropWhile fun c => !isBlank c && c != 62)
  | [] => ([], [])

/-- The attributes of a tag up to its closing bracket, whether it closes itself, and the text
after it; nothing when the tag does not end. -/
def attrs : Nat → Bytes → Option (List (Bytes × Bytes) × Bool × Bytes)
  | 0, _ => none
  | fuel + 1, s =>
      match s.dropWhile isBlank with
      | [] => none
      | 62 :: rest => some ([], false, rest)
      | 47 :: 62 :: rest => some ([], true, rest)
      | 47 :: rest => attrs fuel rest
      | c :: rest =>
          let isEnd (c : UInt8) : Bool := isBlank c || c == 47 || c == 62 || c == 61
          let name := c :: rest.takeWhile fun c => !isEnd c
          let after := rest.dropWhile fun c => !isEnd c
          match after.dropWhile isBlank with
          | 61 :: value =>
              let (v, after) := attrValue value
              (attrs fuel after).map fun (more, closing, rest) =>
                ((Bytes.lowerAscii name, unescape true (plainLines v)) :: more, closing, rest)
          | _ => (attrs fuel after).map fun (more, closing, rest) =>
              ((Bytes.lowerAscii name, []) :: more, closing, rest)

def isName (c : UInt8) : Bool := !isBlank c && c != 47 && c != 62

/-! ## Content that is no markup -/

/-- Elements whose content is text, whatever it looks like. -/
def rawElements : List Bytes := ["iframe", "noembed", "noframes", "noscript", "plaintext", "script",
  "style", "textarea", "title", "xmp"]

def startsName (name s : Bytes) : Bool :=
  Bytes.lowerAscii (s.take name.length) == name &&
    (((s.drop name.length).head?.map fun c => !isName c).getD false)

def startsEnd (name s : Bytes) : Bool := Bytes.startsWith s "</" && startsName name (s.drop 2)

/-- The length of the text up to the end tag of an element; nothing ends plain text. -/
def rawLength (name : Bytes) : Bytes → Nat
  | [] => 0
  | c :: rest =>
      if startsEnd name (c :: rest) && name != Bytes.ofString "plaintext" then 0
      else rawLength name rest + 1

inductive ScriptPart where
  | code
  | comment
  | inner
deriving DecidableEq

/-- The length of the text of a script up to its end tag.  An end tag of a script inside a comment
does not count.  The number of dashes just before comes along; the first argument bounds the number of
steps. -/
def scriptLength : Nat → ScriptPart → Nat → Bytes → Nat
  | 0, _, _, s => s.length
  | _, _, _, [] => 0
  | fuel + 1, part, dashes, c :: rest =>
      let go (part : ScriptPart) (dashes n : Nat) : Nat :=
        n + scriptLength fuel part dashes ((c :: rest).drop n)
      let isEnd := startsEnd "script" (c :: rest)
      match part with
      | .code =>
          if isEnd then 0
          else if Bytes.startsWith (c :: rest) "<!--" then go .comment 2 4
          else go .code 0 1
      | .comment =>
          if c == '-'.toUInt8 then go .comment (dashes + 1) 1
          else if c == '>'.toUInt8 && dashes ≥ 2 then go .code 0 1
          else if c == '<'.toUInt8 then
            if isEnd then 0
            else if startsName "script" rest then go .inner 0 8
            else match rest with
              | d :: _ => if d == '/'.toUInt8 || Bytes.isLetter d then go .comment 0 1 else go .code 0 1
              | [] => 1
          else go .comment 0 1
      | .inner =>
          if c == '-'.toUInt8 then go .inner (dashes + 1) 1
          else if c == '>'.toUInt8 && dashes ≥ 2 then go .code 0 1
          else if isEnd then go .comment 0 9
          else go .inner 0 1

/-- The text up to the end tag of an element, and what follows from that tag on. -/
def rawContent (name s : Bytes) : Bytes × Bytes :=
  let n := if name == Bytes.ofString "script" then scriptLength (s.length + 1) .code 0 s
    else rawLength name s
  (s.take n, s.drop n)

def withoutNul (s : Bytes) : Bytes := s.flatMap fun c => if c == 0 then Utf8.encode 0xFFFD else [c]

/-- The text of an element whose content is no markup; in some of them references count. -/
def rawText (name content : Bytes) : Bytes :=
  let text := withoutNul (plainLines content)
  if name == Bytes.ofString "textarea" || name == Bytes.ofString "title" then unescape false text
  else text

/-! ## Cutting -/

/-- What follows a comment, given the number of dashes before and whether only dashes came since its
start; nothing when it does not end. -/
def afterComment? (dashes : Nat) (beginning : Bool) : Bytes → Option Bytes
  | [] => none
  | 45 :: rest => afterComment? (dashes + 1) beginning rest
  | 62 :: rest => if dashes ≥ 2 || beginning then some rest else afterComment? 0 false rest
  | 33 :: 62 :: rest => if dashes ≥ 2 then some rest else afterComment? 0 false (62 :: rest)
  | _ :: rest => afterComment? 0 false rest

/-- What follows a comment, a declaration or an instruction after its angle bracket; nothing when it
does not end. -/
def afterDeclaration? (s : Bytes) : Option Bytes :=
  if Bytes.startsWith s "!--" then afterComment? 0 true (s.drop 3)
  else (Bytes.cut? (s.drop 1) ">").map (·.2)

/-- The tokens of markup; the bound is the length of the text, and the text so far comes last
byte first. -/
def tokens : Nat → Bytes → Bytes → List Token
  | 0, _, _ => []
  | fuel + 1, acc, s =>
      let flush (rest : List Token) : List Token :=
        if acc.isEmpty then rest else .text (unescape false (plainLines acc.reverse)) :: rest
      let leftOut (after : Option Bytes) : List Token :=
        match after with
        | some rest => flush (.comment :: tokens fuel [] rest)
        | none => flush []
      match s with
      | [] => flush []
      | 60 :: 47 :: c :: rest =>
          if Bytes.isLetter c then
            let name := Bytes.lowerAscii ((c :: rest).takeWhile isName)
            match attrs (rest.length + 1) ((c :: rest).dropWhile isName) with
            | some (_, _, after) => flush (.stop name :: tokens fuel [] after)
            | none => flush []
          else leftOut ((Bytes.cut? (c :: rest) ">").map (·.2))
      | 60 :: c :: rest =>
          if c == '!'.toUInt8 || c == '?'.toUInt8 then leftOut (afterDeclaration? (c :: rest))
          else if Bytes.isLetter c then
            let name := Bytes.lowerAscii ((c :: rest).takeWhile isName)
            match attrs (rest.length + 1) ((c :: rest).dropWhile isName) with
            | some (as, closing, after) =>
                let token := Token.start name as closing
                if rawElements.contains name then
                  let (content, after) := rawContent name after
                  flush (token :: (if content.isEmpty then tokens fuel [] after
                    else .text (rawText name content) :: tokens fuel [] after))
                else flush (token :: tokens fuel [] after)
            | none => flush []
          else tokens fuel (60 :: acc) (c :: rest)
      | c :: rest => tokens fuel (c :: acc) rest

end TagLoom.Sanitizer

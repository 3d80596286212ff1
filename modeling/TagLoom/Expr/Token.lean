import TagLoom.Bytes.Quoted
import TagLoom.Unicode.Letter
import TagLoom.Unicode.Space
import TagLoom.Decimal.Read

/-!
# Tokens of expressions

An expression is read as names, numbers, texts, operators and brackets.  Blanks and
comments separate tokens and are dropped.  A text that cannot be read ends the list
of tokens with the reason.
-/

namespace TagLoom.Expr

open Utf8 (Cell Rune)

inductive TokenKind where
  | name
  | number
  | text
  | operator
  | bracket
  | eof
deriving DecidableEq

def TokenKind.label : TokenKind → Bytes
  | .name => "Identifier"
  | .number => "Number"
  | .text => "String"
  | .operator => "Operator"
  | .bracket => "Bracket"
  | .eof => "EOF"

structure Token where
  kind : TokenKind
  value : Bytes
  start : Nat
deriving DecidableEq

def Token.describe (t : Token) : Bytes :=
  if t.value.isEmpty then t.kind.label
  else t.kind.label ++ "(" ++ Bytes.quote t.value ++ ")"

/-- Why a source cannot be cut into tokens. -/
inductive LexError where
  | unrecognized (r : Rune)
  | badNumber (word : Bytes)
  | openText
  | badEscape
  | badOctal
  | notUnescapable
  | openComment
deriving DecidableEq

def LexError.message : LexError → Bytes
  | .unrecognized r =>
      "unrecognized character: U+" ++ Bytes.upperAscii (Bytes.hex 4 r) ++
        (if Unicode.isPrintable r then " '" ++ Utf8.encode r ++ "'" else [])
  | .badNumber word => "bad number syntax: " ++ Bytes.quote word
  | .openText => "literal not terminated"
  | .badEscape => "invalid char escape"
  | .badOctal => "unable to unescape octal sequence in string"
  | .notUnescapable => "unable to unescape string"
  | .openComment => "unclosed comment"

/-! ## Character classes -/

def isWordStart (r : Rune) : Bool := r == 0x5F || r == 0x24 || Unicode.isLetter r

def isWordRune (r : Rune) : Bool := isWordStart r || Unicode.isDigit r

def isWordCell (c : Cell) : Bool := isWordRune c.rune

def spelling (cs : List Cell) : Bytes := (cs.map (·.spelled)).flatten

def oneOf (set : Bytes) (c : Cell) : Bool := c.rune < 0x80 && set.contains c.rune.toUInt8

def isName (s : Bytes) : Bool :=
  match Utf8.runes s with
  | [] => false
  | r :: rs => isWordStart r && rs.all isWordRune

/-! ## Texts -/

def escapeDigits? (r : Rune) : Option (Nat × Nat) :=
  if r == 0x78 then some (16, 2)
  else if r == 0x75 then some (16, 4)
  else if r == 0x55 then some (16, 8)
  else none

def isDigitOf (base : Nat) (c : Cell) : Bool :=
  c.rune < 0x80 && ((Decimal.digitValue c.rune.toUInt8).map fun d => decide (d < base)).getD false

def maxBracedDigits : Nat := 6

/-- The hexadecimal digits of a code point in braces, `u{1F600}`, after its letter. -/
def bracedDigits? : List Cell → Option (List Cell)
  | [] => none
  | c :: rest =>
      let digits := rest.takeWhile (isDigitOf 16)
      let closed := ((rest.drop digits.length).head?.map (oneOf "\x7d")).getD false
      if oneOf "\x7b" c && 0 < digits.length && digits.length ≤ maxBracedDigits && closed then
        some digits
      else none

def opensBraces (c : Cell) (rest : List Cell) : Bool :=
  c.rune == 0x75 && (rest.head?.map (oneOf "\x7b")).getD false

def escapeLength (mark : Rune) : List Cell → Except LexError Nat
  | [] => .error .badEscape
  | c :: rest =>
      if oneOf "abfnrtv\\" c || c.rune == mark then .ok 1
      else if oneOf "01234567" c then
        if ((c :: rest).take 3).length == 3 && ((c :: rest).take 3).all (isDigitOf 8) then .ok 3
        else .error .badEscape
      else if opensBraces c rest then
        match bracedDigits? rest with
        | some digits => .ok (digits.length + 3)
        | none => .error .badEscape
      else match escapeDigits? c.rune with
        | some (base, n) =>
            if (rest.take n).length == n && (rest.take n).all (isDigitOf base) then .ok (n + 1)
            else .error .badEscape
        | none => .error .badEscape

def textLength (mark : Rune) : List Cell → Except LexError Nat
  | [] => .error .openText
  | c :: rest =>
      if c.rune == mark then .ok 1
      else if c.rune == 0x0A then .error .openText
      else if c.rune == 0x5C then
        match escapeLength mark rest with
        | .error e => .error e
        | .ok n => (textLength mark (rest.drop n)).map (· + n + 1)
      else (textLength mark rest).map (· + 1)
  termination_by cs => cs.length
  decreasing_by
    all_goals simp only [List.length_drop, List.length_cons]; omega

def unescapeOne : List Cell → Except LexError (Rune × List Cell)
  | [] => .error .notUnescapable
  | c :: rest =>
      let value (base n : Nat) (cs : List Cell) : Except LexError (Rune × List Cell) :=
        match Decimal.readNat? base (spelling (cs.take n)) with
        | some v => if v > 0x10FFFF then .error .notUnescapable else .ok (v, cs.drop n)
        | none => .error .notUnescapable
      match (if opensBraces c rest then bracedDigits? rest else none), escapeDigits? c.rune with
      | some digits, _ =>
          (value 16 digits.length (rest.drop 1)).map fun (v, after) => (v, after.drop 1)
      | none, some (base, n) => value base n rest
      | none, none =>
          if oneOf "0123" c then value 8 3 (c :: rest)
          else if c.rune == 0x61 then .ok (7, rest)
          else if c.rune == 0x62 then .ok (8, rest)
          else if c.rune == 0x66 then .ok (12, rest)
          else if c.rune == 0x6E then .ok (10, rest)
          else if c.rune == 0x72 then .ok (13, rest)
          else if c.rune == 0x74 then .ok (9, rest)
          else if c.rune == 0x76 then .ok (11, rest)
          else if oneOf "\\'\"" c then .ok (c.rune, rest)
          else .error .notUnescapable

/-- The value of the characters between the marks of a text.  A carriage return, with
or without a newline after it, is a newline.  The count bounds the characters. -/
def unescape : Nat → List Cell → Except LexError Bytes
  | 0, _ => .ok []
  | _ + 1, [] => .ok []
  | fuel + 1, c :: rest =>
      if c.rune == 0x5C then do
        let (r, rest) ← unescapeOne rest
        return Utf8.encode r ++ (← unescape fuel rest)
      else if c.rune == 0x0D then
        match rest with
        | n :: after =>
            if n.rune == 0x0A then return 0x0A :: (← unescape fuel after)
            else return 0x0A :: (← unescape fuel rest)
        | [] => .ok [0x0A]
      else return Utf8.encode c.rune ++ (← unescape fuel rest)

/-- The characters of a raw text after its opening mark, a doubled mark standing for one, the
number of characters up to and including the closing mark, and whether any mark was doubled. -/
def rawCells (mark : Rune) : List Cell → Option (List Cell × Nat × Bool)
  | [] => none
  | c :: rest =>
      if c.rune == mark then
        match rest with
        | d :: after =>
            if d.rune == mark then
              (rawCells mark after).map fun (s, n, _) => (c :: s, n + 2, true)
            else some ([], 1, false)
        | [] => some ([], 1, false)
      else (rawCells mark rest).map fun (s, n, doubled) => (c :: s, n + 1, doubled)

/-- The value of a raw text after its opening mark and the number of characters up to and
including the closing mark.  The bytes of a text without doubled marks are kept as they are;
those of any other are written anew, character by character. -/
def rawText (mark : Rune) (cs : List Cell) : Option (Bytes × Nat) :=
  (rawCells mark cs).map fun (s, n, doubled) =>
    (if doubled then Utf8.ofRunes (s.map (·.rune)) else spelling s, n)

/-! ## Numbers -/

def takeRun (set : Bytes) (cs : List Cell) : Nat := (cs.takeWhile (oneOf set)).length

def numberLength (cs : List Cell) : Except LexError Nat :=
  let second := (cs.drop 1).head?
  let zero := (cs.head?.map (oneOf "0")).getD false
  let is (set : Bytes) : Bool := zero && (second.map (oneOf set)).getD false
  let (start, digits) :=
    if is "xX" then (2, Bytes.ofString "0123456789abcdefABCDEF_")
    else if is "oO" then (2, Bytes.ofString "01234567_")
    else if is "bB" then (2, Bytes.ofString "01_")
    else (if zero then 1 else 0, Bytes.ofString "0123456789_")
  let whole := start + takeRun digits (cs.drop start)
  let tail := cs.drop whole
  let dot := (tail.head?.map (oneOf ".")).getD false
  let range := dot && ((tail.drop 1).head?.map (oneOf ".")).getD false
  if range then .ok whole
  else
    let n := if dot then whole + 1 + takeRun digits (tail.drop 1) else whole
    let n :=
      if ((cs.drop n).head?.map (oneOf "eE")).getD false then
        let m := n + 1
        let m := if ((cs.drop m).head?.map (oneOf "+-")).getD false then m + 1 else m
        m + takeRun digits (cs.drop m)
      else n
    if ((cs.drop n).head?.map isWordCell).getD false then
      .error (.badNumber (spelling (cs.take (n + 1))))
    else .ok n

/-! ## One token at a time -/

/-- What stands at the start of a source: something to drop, or tokens, with the
number of characters they take beyond the first. -/
inductive Lexeme where
  | skip (more : Nat)
  | tokens (ts : List (TokenKind × Bytes × Nat)) (more : Nat)
  | error (e : LexError)

def wordOperators : List Bytes :=
  ["not", "in", "or", "and", "matches", "contains", "startsWith", "endsWith", "let", "if", "else"]

def commentLength : List Cell → Option Nat
  | [] => none
  | c :: rest =>
      if c.rune == 0x2A && (rest.head?.map (oneOf "/")).getD false then some 2
      else (commentLength rest).map (· + 1)

def wordToken (kind : TokenKind) (cs : List Cell) (n : Nat) : Lexeme :=
  .tokens [(kind, spelling (cs.take n), 0)] (n - 1)

def follows (set : Bytes) (rest : List Cell) : Bool := (rest.head?.map (oneOf set)).getD false

def lexeme (c : Cell) (rest : List Cell) : Lexeme :=
  let cs := c :: rest
  if Unicode.isSpace c.rune then .skip 0
  else if oneOf "'\"" c then
    match textLength c.rune rest with
    | .error e => .error e
    | .ok n =>
        match unescape n (rest.take (n - 1)) with
        | .error e => .error e
        | .ok value => .tokens [(.text, value, 0)] n
  else if c.rune == 0x60 then
    match rawText c.rune rest with
    | none => .error .openText
    | some (value, n) => .tokens [(.text, value, 0)] n
  else if oneOf "0123456789" c then
    match numberLength cs with
    | .error e => .error e
    | .ok n => wordToken .number cs n
  else if c.rune == 0x3F then wordToken .operator cs (if follows ".?" rest then 2 else 1)
  else if c.rune == 0x2F then
    if follows "/" rest then
      .skip (rest.takeWhile (fun c => c.rune != 0x0A)).length
    else if follows "*" rest then
      match commentLength (rest.drop 1) with
      | some n => .skip (n + 1)
      | none => .error .openComment
    else wordToken .operator cs 1
  else if c.rune == 0x23 then
    let n := if follows "#" rest then 2 else 1
    let word := (cs.drop n).takeWhile isWordCell
    .tokens ((.operator, spelling (cs.take n), 0) ::
      (if word.isEmpty then [] else [(.name, spelling word, n)])) (n + word.length - 1)
  else if c.rune == 0x7C then wordToken .operator cs (if follows "|" rest then 2 else 1)
  else if c.rune == 0x3A then wordToken .operator cs (if follows ":" rest then 2 else 1)
  else if oneOf "([\x7b)]\x7d" c then wordToken .bracket cs 1
  else if oneOf ",;%+-^" c then wordToken .operator cs 1
  else if oneOf "&!=*<>" c then wordToken .operator cs (if follows "&=*" rest then 2 else 1)
  else if c.rune == 0x2E then
    if follows "0123456789" rest then
      match numberLength rest with
      | .error (.badNumber word) => .error (.badNumber (c.spelled ++ word))
      | .error e => .error e
      | .ok n => wordToken .number cs (n + 1)
    else wordToken .operator cs (if follows "." rest then 2 else 1)
  else if isWordCell c then
    let word := cs.takeWhile isWordCell
    let kind := if wordOperators.contains (spelling word) then .operator else .name
    wordToken kind cs word.length
  else .error (.unrecognized c.rune)

def lexCells : List Cell → Nat → List Token × Option LexError
  | [], start => ([⟨.eof, [], start - 1⟩], none)
  | c :: rest, start =>
      match lexeme c rest with
      | .skip more => lexCells (rest.drop more) (start + more + 1)
      | .error e => ([], some e)
      | .tokens ts more =>
          let (after, e) := lexCells (rest.drop more) (start + more + 1)
          (ts.map (fun (kind, value, shift) => ⟨kind, value, start + shift⟩) ++ after, e)
  termination_by cs => cs.length
  decreasing_by
    all_goals simp only [List.length_drop, List.length_cons]; omega

def lex (source : Bytes) : List Token × Option LexError := lexCells (Utf8.cells source) 0

end TagLoom.Expr

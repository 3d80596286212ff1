import TagLoom.Code
import TagLoom.Bytes.Quoted

/-!
# Review of code

Code is laid out only when it can be read: its bytes are well-formed characters, and it starts
with a package clause.  A review lists the problems in the order of their places.  A problem of
grammar on the line of the problem before it is not listed, since it mostly follows from that one.
-/

namespace TagLoom.Code

/-!
## Tokens of code

Reading code token by token, as far as finding its package clause needs it.  A line that ends
after a token that can end a statement gives a token of its own.
-/

inductive TokenKind where
  | word
  | keyword
  /-- A number, a character or a text. -/
  | literal
  | operator
  /-- The end of a line that ends a statement. -/
  | newline
  | illegal
  /-- The end of the code. -/
  | ending
deriving DecidableEq, Inhabited

structure Token where
  kind : TokenKind
  text : Bytes
  start : Nat
  stop : Nat
  problem : Option Bytes := none
deriving DecidableEq, Inhabited

namespace Token

def described (t : Token) : Bytes :=
  match t.kind with
  | .newline => "newline"
  | .word | .literal => t.text
  | .illegal => "'ILLEGAL'"
  | .ending => "'EOF'"
  | .keyword | .operator => "'" ++ t.text ++ "'"

def isKeyword (t : Token) (word : Bytes) : Bool := t.kind == .keyword && t.text == word

def isOperator (t : Token) (text : Bytes) : Bool := t.kind == .operator && t.text == text

def endsStatement (t : Token) : Bool :=
  match t.kind with
  | .word | .literal => true
  | .keyword => (["break", "continue", "fallthrough", "return"] : List Bytes).contains t.text
  | .operator => ([")", "]", "\x7d", "++", "--"] : List Bytes).contains t.text
  | _ => false

end Token

/-- Code that is left to read, from an offset on; `mayEnd` when a line end would end a
statement. -/
structure Reader where
  offset : Nat
  rest : Bytes
  mayEnd : Bool
deriving Inhabited

namespace Reader

def isLetter (r : Nat) : Bool := r == '_'.toNat || Unicode.isLetter r

def isWordPart (c : Utf8.Cell) : Bool := isLetter c.rune || Unicode.isDigit c.rune

def operators : List Bytes := ([
  "<<=", ">>=", "&^=", "...", "&&", "||", "<-", "++", "--", "==", "!=", "<=", ">=", ":=", "+=", "-=",
  "*=", "/=", "%=", "&=", "|=", "^=", "<<", ">>", "&^", "+", "-", "*", "/", "%", "&", "|", "^", "<",
  ">", "=", "!", "(", ")", "[", "]", "\x7b", "\x7d", ",", ";", ".", ":", "~"] : List String).map
  Bytes.ofString

/-- The code point as a message names it, with the character when it can be shown. -/
def illegalCharacter (c : Utf8.Cell) : Bytes :=
  if c.rune == 0x201C || c.rune == 0x201D then
    "curly quotation mark '" ++ c.spelled ++ "' (use neutral '\"')"
  else
    let digits := Bytes.upperAscii (Bytes.ofString (String.ofList (Nat.toDigits 16 c.rune)))
    "illegal character U+" ++ Bytes.fill (4 - digits.length) '0'.toUInt8 ++ digits ++
      Bytes.when (Unicode.isPrintable c.rune) (" '" ++ c.spelled ++ "'")

/-- The length of a text that starts with its quote and ends with it on the same line, and whether
it ends at all. -/
def quotedLength (quote : UInt8) : Bytes → Nat × Bool
  | [] => (0, false)
  | c :: rest =>
      if c == quote then (1, true)
      else if c == 10 then (0, false)
      else if c == '\\'.toUInt8 then
        match rest with
        | [] => (1, false)
        | d :: rest =>
            if d == 10 then (1, false)
            else let (n, closed) := quotedLength quote rest; (n + 2, closed)
      else let (n, closed) := quotedLength quote rest; (n + 1, closed)

def numberLength (s : Bytes) : Nat :=
  let isPart (c : UInt8) : Bool := Bytes.isDigit c || c == 95
  let whole := (s.takeWhile isPart).length
  let fraction :=
    match s.drop whole with
    | c :: rest => if c == '.'.toUInt8 then 1 + (rest.takeWhile isPart).length else 0
    | [] => 0
  whole + fraction

def tokenAt (offset : Nat) (s : Bytes) : Token :=
  let make (kind : TokenKind) (length : Nat) (problem : Option Bytes) : Token :=
    ⟨kind, s.take length, offset, offset + length, problem⟩
  match s, Utf8.cells (s.take 4) with
  | c :: rest, cell :: _ =>
      let next := (rest.head?.map Bytes.isDigit).getD false
      if isLetter cell.rune then
        let word := ((Utf8.cells s).takeWhile isWordPart).flatMap (·.spelled)
        make (if keywords.contains word then .keyword else .word) word.length none
      else if Bytes.isDigit c || (c == '.'.toUInt8 && next) then make .literal (numberLength s) none
      else if c == '"'.toUInt8 then
        let (n, closed) := quotedLength c rest
        make .literal (n + 1) (if closed then none else some "string literal not terminated")
      else if c == 39 then
        let (n, closed) := quotedLength c rest
        make .literal (n + 1) (if !closed then some "rune literal not terminated"
          else if Utf8.count (rest.take (n - 1)) == 1 || rest.head? == some '\\'.toUInt8 then none
          else some "illegal rune literal")
      else if c == 0x60 then
        let n := (rest.takeWhile (· != 0x60)).length
        if n < rest.length then make .literal (n + 2) none
        else make .literal (n + 1) (some "raw string literal not terminated")
      else match operators.find? (Bytes.startsWith s) with
        | some op => make .operator op.length none
        | none => make .illegal cell.spelled.length
            (if cell.rune == 0xFEFF then none else some (illegalCharacter cell))
  | _, _ => make .ending 0 none

def after (r : Reader) (t : Token) : Reader :=
  ⟨t.stop, r.rest.drop (t.stop - r.offset), if t.kind == .illegal then r.mayEnd else t.endsStatement⟩

def skip (r : Reader) (n : Nat) : Reader := { r with offset := r.offset + n, rest := r.rest.drop n }

def nextWithin : Nat → Reader → Token × Reader
  | 0, r => (⟨.ending, [], r.offset, r.offset, none⟩, r)
  | fuel + 1, r =>
      let newline : Token × Reader :=
        (⟨.newline, "\n", r.offset, r.offset + 1, none⟩, { r.skip 1 with mayEnd := false })
      match r.rest with
      | [] => if r.mayEnd then newline else (⟨.ending, [], r.offset, r.offset, none⟩, r)
      | c :: rest =>
          if c == 10 && r.mayEnd then newline
          else if c == 32 || c == 9 || c == 13 || c == 10 then nextWithin fuel (r.skip 1)
          else if Bytes.startsWith r.rest "//" then
            let n := (r.rest.takeWhile (· != 10)).length
            if r.mayEnd then
              (⟨.newline, "\n", r.offset, r.offset + n, none⟩, { r.skip n with mayEnd := false })
            else nextWithin fuel (r.skip n)
          else if Bytes.startsWith r.rest "/*" then
            match Bytes.indexOf? (rest.drop 1) "*/" with
            | some n =>
                if r.mayEnd && (rest.take n).contains 10 then
                  (⟨.newline, "\n", r.offset, r.offset + n + 4, none⟩,
                    { r.skip (n + 4) with mayEnd := false })
                else nextWithin fuel (r.skip (n + 4))
            | none =>
                let n := r.rest.length
                (⟨.ending, [], r.offset, r.offset + n, some "comment not terminated"⟩, r.skip n)
          else
            let t := tokenAt r.offset r.rest
            (t, r.after t)

def next (r : Reader) : Token × Reader := r.nextWithin (r.rest.length + 1)

end Reader

/-! ## Problems -/

structure Problem where
  offset : Nat
  message : Bytes
deriving DecidableEq

def characterProblems (offset : Nat) : List Utf8.Cell → List Problem
  | [] => []
  | c :: cs =>
      let rest := characterProblems (offset + c.spelled.length) cs
      if c.rune == Utf8.replacement && c.spelled.length == 1 then
        ⟨offset, "illegal UTF-8 encoding"⟩ :: rest
      else if c.rune == 0 then ⟨offset, "illegal character NUL"⟩ :: rest
      else if c.rune == 0xFEFF && offset > 0 then ⟨offset, "illegal byte order mark"⟩ :: rest
      else rest

/-- A review under way: the token in view, what is left behind it, the character problems not yet
reached, and the problems so far, the latest first. -/
structure Review where
  code : Bytes
  token : Token
  rest : Reader
  ahead : List Problem
  found : List Problem

namespace Review

def lineAt (r : Review) (offset : Nat) : Nat := (r.code.take offset).count 10

def advance (r : Review) : Review :=
  let (t, rest) := r.rest.next
  let reached := r.ahead.takeWhile (·.offset ≤ t.stop)
  let own := (t.problem.map fun message => (⟨t.start, message⟩ : Problem)).toList
  { r with token := t, rest := rest, ahead := r.ahead.drop reached.length
           found := own ++ reached.reverse ++ r.found }

def complain (r : Review) (message : Bytes) : Review :=
  match r.found with
  | last :: _ =>
      if r.lineAt last.offset == r.lineAt r.token.start then r
      else { r with found := ⟨r.token.start, message⟩ :: r.found }
  | [] => { r with found := [⟨r.token.start, message⟩] }

def expected (r : Review) (what : Bytes) : Review :=
  r.complain ("expected " ++ what ++ ", found " ++ r.token.described)

def seek (words : List Bytes) : Nat → Review → Review
  | 0, r => r
  | fuel + 1, r =>
      if r.token.kind == .ending || (r.token.kind == .keyword && words.contains r.token.text) then r
      else seek words fuel r.advance

def statementWords : List Bytes := ["break", "const", "continue", "defer", "fallthrough", "for", "go",
  "goto", "if", "return", "select", "switch", "type", "var"]

def declarationWords : List Bytes := ["import", "const", "type", "var"]

def statementEnd (r : Review) : Review :=
  if r.token.isOperator ")" || r.token.isOperator "\x7d" then r
  else if r.token.isOperator "," then (r.expected "';'").advance
  else if r.token.kind == .newline || r.token.isOperator ";" then r.advance
  else (r.expected "';'").seek statementWords r.code.length

def packageClause (r : Review) : Review :=
  let r := (if r.token.isKeyword "package" then r else r.expected "'package'").advance
  let r := (if r.token.kind == .word then r else r.expected "'IDENT'").advance
  r.statementEnd

/-- Reads up to the declarations that every file has, which start with an import. -/
def imports (r : Review) : Review :=
  if r.token.kind == .keyword then r
  else
    let r := (r.expected "declaration").seek declarationWords r.code.length
    if r.token.isKeyword "import" then r.complain "imports must appear before other declarations"
    else r

def run (code : Bytes) : Review :=
  let begun : Review :=
    ⟨code, default, ⟨0, code, false⟩, characterProblems 0 (Utf8.cells code), []⟩
  let r := begun.advance
  if !r.found.isEmpty then r
  else
    let r := r.packageClause
    if !r.found.isEmpty then r
    else
      let r := r.imports
      { r with ahead := [], found := r.ahead.reverse ++ r.found }

end Review

def problems (code : Bytes) : List Problem :=
  (Review.run code).found.reverse.mergeSort fun a b => a.offset < b.offset ||
    (a.offset == b.offset && Bytes.le a.message b.message)

/-- The line and the column of an offset of code, both from one on; columns count bytes. -/
def placeOf (code : Bytes) (offset : Nat) : Nat × Nat :=
  let before := code.take offset
  (before.count 10 + 1, (before.reverse.takeWhile (· != 10)).length + 1)

/-- The message for the problems of a file, which names the first and counts the others; nothing
when there are none. -/
def problemReport? (file code : Bytes) : Option Bytes :=
  match problems code with
  | [] => none
  | first :: others =>
      let (line, column) := placeOf code first.offset
      some (file ++ ": " ++ file ++ ":" ++ Bytes.ofNat line ++ ":" ++ Bytes.ofNat column ++ ": " ++
        first.message ++
        Bytes.when (!others.isEmpty) (" (and " ++ Bytes.ofNat others.length ++ " more errors)"))

def packageName (package : Bytes) : Bytes := ((⟨0, package, false⟩ : Reader).next).1.text

end TagLoom.Code

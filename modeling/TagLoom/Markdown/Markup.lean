import TagLoom.Markdown.Text
import TagLoom.Unicode.Case

/-!
# Running text and its markup

How addresses, titles and labels of links are read from running text, and the tags, comments,
instructions and declarations that are left out of the output.
-/

namespace TagLoom.Markdown

/-!
## Reading running text

A cursor is a place in the lines of a running text.  From it addresses, titles and labels of links
are read, and the definitions that a paragraph may start with.
-/

/-- A place in running text: the character before it, what is left of its line, and the lines after
that one. -/
structure Cursor where
  before : Utf8.Rune
  rest : Bytes
  lines : List TextLine
deriving DecidableEq, Inhabited

namespace Cursor

/-- The last character of a text; a line end when there is none. -/
def lastRune (s : Bytes) : Utf8.Rune :=
  (((Utf8.cells s).getLast?).map (·.rune)).getD 10

def ofLines : List TextLine → Cursor
  | [] => ⟨10, [], []⟩
  | l :: ls => ⟨10, l.text, ls⟩

def nextLine (c : Cursor) : Cursor :=
  match c.lines with
  | [] => { c with rest := [] }
  | l :: ls => ⟨lastRune l.lead, l.text, ls⟩

def atEnd (c : Cursor) : Bool := c.rest.isEmpty

/-- Takes bytes of the line, and goes on to the next line when it is used up. -/
def advance (c : Cursor) (n : Nat) : Cursor :=
  if n == 0 then c
  else if n < c.rest.length || c.lines.isEmpty then
    { c with before := lastRune (c.rest.take n), rest := c.rest.drop n }
  else c.nextLine

def skip : List TextLine → Nat → Cursor → Cursor
  | [], n, c => c.advance n
  | _ :: ls, n, c =>
      if n < c.rest.length then c.advance n else skip ls (n - c.rest.length) c.nextLine

def peek (c : Cursor) : Option UInt8 := c.rest.head?

def remaining (c : Cursor) : Bytes := c.rest ++ c.lines.flatMap (·.text)

/-- Skips blanks over the ends of lines: their number, and the place after them. -/
def skipBlanks (c : Cursor) : Nat × Cursor :=
  let text := c.remaining
  let n := (text.takeWhile isBlank).length
  (n, skip c.lines n c)

def sourceBetween (stop : Cursor) : List TextLine → Bytes → Bytes
  | [], rest => rest.take (rest.length - stop.rest.length)
  | l :: ls, rest =>
      if (l :: ls).length ≤ stop.lines.length then rest.take (rest.length - stop.rest.length)
      else rest ++ l.lead ++ sourceBetween stop ls l.text

end Cursor

/-! ## Enclosed text -/

/-- What a search for the end of an enclosed text in a line gives. -/
inductive Closure where
  | closed (length : Nat)
  /-- The text is opened again before it ends. -/
  | reopened
  | none
deriving DecidableEq

/-- Looks for the end of an enclosed text in a line; a backslash hides a punctuation mark. -/
def closureIn (opener closer : UInt8) : Nat → Bytes → Closure
  | _, [] => .none
  | n, 92 :: p :: rest =>
      if isPunct p then closureIn opener closer (n + 2) rest
      else closureIn opener closer (n + 1) (p :: rest)
  | n, c :: rest =>
      if c == closer then .closed n
      else if c == opener then .reopened
      else closureIn opener closer (n + 1) rest
termination_by _ s => s.length

/-- The enclosed text after its opening mark, over several lines, and the place after its closing
mark; the place where the search ended when there is none. -/
def enclosedIn (opener closer : UInt8) : List TextLine → Cursor → Option Bytes × Cursor
  | ls, c =>
      match closureIn opener closer 0 c.rest with
      | .closed n => (some (c.rest.take n), c.advance (n + 1))
      | .reopened => (none, c)
      | .none =>
          match ls with
          | [] => (none, c.nextLine)
          | _ :: ls' =>
              let (more, stop) := enclosedIn opener closer ls' c.nextLine
              (more.map (c.rest ++ ·), stop)

def enclosed (opener closer : UInt8) (c : Cursor) : Option Bytes × Cursor :=
  enclosedIn opener closer c.lines c

/-! ## Addresses and titles -/

/-- The length of an address between angle brackets, after the first one. -/
def angledLength : Nat → Bytes → Option Nat
  | _, [] => none
  | n, 92 :: p :: rest =>
      if isPunct p then angledLength (n + 2) rest else angledLength (n + 1) (p :: rest)
  | n, c :: rest => if c == '>'.toUInt8 then some n else angledLength (n + 1) rest
termination_by _ s => s.length

/-- The length of a bare address: it ends at a blank, or at a parenthesis that it does not open. -/
def bareLength : Nat → Nat → Bytes → Nat
  | _, n, [] => n
  | opened, n, 92 :: p :: rest =>
      if isPunct p then bareLength opened (n + 2) rest else bareLength opened (n + 1) (p :: rest)
  | opened, n, c :: rest =>
      if c == '('.toUInt8 then bareLength (opened + 1) (n + 1) rest
      else if c == ')'.toUInt8 then
        if opened == 0 then n else bareLength (opened - 1) (n + 1) rest
      else if isBlank c then n
      else bareLength opened (n + 1) rest
termination_by _ _ s => s.length

def destination? (c : Cursor) : Option (Bytes × Cursor) :=
  let c := c.skipBlanks.2
  match c.rest with
  | 60 :: rest =>
      (angledLength 0 rest).map fun n => (rest.take n, c.advance (n + 2))
  | rest =>
      let n := bareLength 0 0 rest
      if n == 0 then none else some (rest.take n, c.advance n)

def titleCloser? (opener : UInt8) : Option UInt8 :=
  if opener == '"'.toUInt8 || opener == 39 then some opener
  else if opener == '('.toUInt8 then some ')'.toUInt8
  else none

def title? (c : Cursor) : Option (Bytes × Cursor) := do
  let c := c.skipBlanks.2
  let opener ← c.peek
  let closer ← titleCloser? opener
  let (found, after) := enclosed opener closer (c.advance 1)
  let title ← found
  some (title, after)

/-- Where a link leads: an address and perhaps a title. -/
structure Target where
  address : Bytes
  title : Option Bytes
deriving DecidableEq, Inhabited

def closing? (c : Cursor) : Option Cursor :=
  let c := c.skipBlanks.2
  if c.peek == some ')'.toUInt8 then some (c.advance 1) else none

def inlineTarget? (c : Cursor) : Option (Target × Cursor) :=
  let c := c.advance 1
  match closing? c with
  | some after => some (⟨[], none⟩, after)
  | none => do
      let (address, c) ← destination? c
      match closing? c with
      | some after => some (⟨address, none⟩, after)
      | none =>
          let (title, c) ← title? c
          let after ← closing? c
          some (⟨address, some title⟩, after)

/-! ## Definitions -/

/-- A label without the distinctions that do not count: case, and how many blanks stand where. -/
def labelKey (label : Bytes) : Bytes :=
  let folded := Unicode.foldText (trimRight (trimLeft label))
  Bytes.join " " (Bytes.fields isBlank folded)

abbrev Definitions := List (Bytes × Target)

namespace Definitions

def add (defs : Definitions) (label : Bytes) (target : Target) : Definitions :=
  defs ++ [(labelKey label, target)]

def find? (defs : Definitions) (label : Bytes) : Option Target :=
  (defs.lookup (labelKey label))

end Definitions

/-- A definition that was read: its label and target, the number of lines it takes, and the place
where reading goes on. -/
structure Definition where
  label : Bytes
  target : Target
  lines : Nat
  after : Cursor

def definition? (total : Nat) (c : Cursor) : Option Definition := do
  let lineOf (c : Cursor) : Nat := total - 1 - c.lines.length
  let c := c.skipBlanks.2
  let first := lineOf c
  if c.peek != some '['.toUInt8 then none
  else
    let (found, c) := enclosed '['.toUInt8 ']'.toUInt8 (c.advance 1)
    let label ← found
    if isBlankLine label || c.peek != some ':'.toUInt8 then none
    else
      let (address, c) ← destination? (c.advance 1)
      let endsLine := isBlankLine c.rest
      let last := lineOf c
      let bare (after : Cursor) : Option Definition :=
        if endsLine then some ⟨label, ⟨address, none⟩, last + 1, after⟩ else none
      let (blanks, start) := c.skipBlanks
      match start.peek.bind titleCloser?, start.peek with
      | some closer, some opener =>
          if blanks == 0 then none
          else match enclosed opener closer (start.advance 1) with
            | (none, after) => bare after.nextLine
            | (some title, after) =>
                if isBlankLine after.rest then
                  some ⟨label, ⟨address, some title⟩, lineOf after + 1, after⟩
                else if endsLine then
                  some ⟨label, ⟨address, none⟩, if first == last then last + 1 else last, after⟩
                else none
      | _, _ => bare start

/-- The definitions that the lines of a paragraph start with, and the lines after them. -/
def definitionsIn (total : Nat) : Nat → Cursor → Definitions → Nat → Definitions × Nat
  | 0, _, defs, taken => (defs, taken)
  | fuel + 1, c, defs, taken =>
      match definition? total c with
      | none => (defs, taken)
      | some d => definitionsIn total fuel d.after (defs.add d.label d.target) d.lines

def takeDefinitions (defs : Definitions) (lines : List TextLine) : Definitions × List TextLine :=
  let (defs, taken) := definitionsIn lines.length lines.length (Cursor.ofLines lines) defs 0
  (defs, lines.drop taken)

/-! ## Tags -/

def isNameStart (c : UInt8) : Bool := Bytes.isLetter c || c == '_'.toUInt8 || c == ':'.toUInt8

def isNameByte (c : UInt8) : Bool :=
  isNameStart c || Bytes.isDigit c || c == '.'.toUInt8 || c == '-'.toUInt8

def isTagBlank (c : UInt8) : Bool := c == 32 || c == 9 || c == 10 || c == 12 || c == 13

def afterValue? (s : Bytes) : Option Bytes :=
  match s with
  | 34 :: rest => (Bytes.cut? rest "\"").map (·.2)
  | 39 :: rest => (Bytes.cut? rest "'").map (·.2)
  | _ =>
      let bare := s.takeWhile fun c => c > 32 && !([34, 39, 60, 61, 62, 96] : List UInt8).contains c
      if bare.isEmpty then none else some (s.drop bare.length)

/-- What follows the attributes of a tag.  The count bounds their number. -/
def afterAttributes : Nat → Bytes → Bytes
  | 0, s => s
  | fuel + 1, s =>
      let t := s.dropWhile isTagBlank
      let name := t.takeWhile isNameByte
      if t.length == s.length || !(name.head?.map isNameStart).getD false then s
      else
        let rest := t.drop name.length
        match rest.dropWhile isTagBlank with
        | 61 :: value =>
            match afterValue? (value.dropWhile isTagBlank) with
            | some after => afterAttributes fuel after
            | none => rest
        | _ => afterAttributes fuel rest

def tagName? (s : Bytes) : Option (Bytes × Bytes) :=
  let name := s.takeWhile fun c => isAlphaNumeric c || c == 45
  if (name.head?.map Bytes.isLetter).getD false then some (name, s.drop name.length) else none

def afterTag? (s : Bytes) : Option Bytes :=
  match s with
  | 47 :: rest => do
      let (_, rest) ← tagName? rest
      match rest.dropWhile isTagBlank with
      | 62 :: rest => some rest
      | _ => none
  | _ => do
      let (_, rest) ← tagName? s
      match (afterAttributes rest.length rest).dropWhile isTagBlank with
      | 62 :: rest => some rest
      | 47 :: 62 :: rest => some rest
      | _ => none

/-! ## Markup in running text -/

/-- The place after a comment whose line from the cursor on starts with its mark; within a comment
there are no two dashes but those that start a line. -/
def afterComment? : List TextLine → Cursor → Nat → Option Cursor
  | ls, c, offset =>
      let body := c.rest.drop offset
      match Bytes.indexOf? body "--" with
      | some n =>
          if Bytes.startsWith (body.drop n) "-->" then some (c.advance (offset + n + 3))
          else if offset + n > 0 then none
          else match ls with
            | [] => none
            | _ :: ls' => afterComment? ls' c.nextLine 0
      | none =>
          match ls with
          | [] => none
          | _ :: ls' => afterComment? ls' c.nextLine 0

def afterText? (text : Bytes) (c : Cursor) : Option Cursor :=
  (Bytes.indexOf? c.remaining text).map fun n => Cursor.skip c.lines (n + text.length) c

def afterMarkup? (c : Cursor) : Option Cursor :=
  let line := c.rest
  let second := (line.drop 1).head?
  let third := (line.drop 2).head?
  if second.any isAlphaNumeric || (second == some 47 && third.any isAlphaNumeric) then
    let text := c.remaining
    (afterTag? (text.drop 1)).map fun after => Cursor.skip c.lines (text.length - after.length) c
  else if Bytes.startsWith line "<!---->" then some (c.advance 7)
  else if Bytes.startsWith line "<!-->" || Bytes.startsWith line "<!--->" then none
  else if Bytes.startsWith line "<!--" then afterComment? c.lines c 4
  else if Bytes.startsWith line "<?" then afterText? "?>" c
  else if second == some 33 && third.any Bytes.isUpper then afterText? ">" c
  else if Bytes.startsWith line "<![CDATA[" then afterText? "]]>" c
  else none

/-! ## Links to themselves -/

def urlLength? (s : Bytes) : Option Nat :=
  let scheme := s.takeWhile fun c => isAlphaNumeric c || c == 43 || c == 45 || c == 46
  if !(scheme.head?.map Bytes.isLetter).getD false || scheme.length < 2 || scheme.length > 33 then none
  else match s.drop scheme.length with
    | 58 :: rest =>
        some (scheme.length + 1 + (rest.takeWhile fun c => c > 32 && c != 60 && c != 62).length)
    | _ => none

def isMailByte (c : UInt8) : Bool :=
  isAlphaNumeric c || (".!#$%&'*+/=?^_`\x7b|\x7d~-" : String).toUTF8.data.contains c

/-- The length of a label of a host: letters, digits and inner dashes, sixty-three at most. -/
def hostLabelLength (s : Bytes) : Nat :=
  let run := (s.takeWhile fun c => isAlphaNumeric c || c == 45).take 63
  if (run.head?.map isAlphaNumeric).getD false then (Bytes.trimRightWhere (· == 45) run).length else 0

def hostTailLength : Nat → Bytes → Nat
  | 0, _ => 0
  | fuel + 1, s =>
      match s with
      | 46 :: rest =>
          let n := hostLabelLength rest
          if n == 0 then 0 else n + 1 + hostTailLength fuel (rest.drop n)
      | _ => 0

def mailLength? (s : Bytes) : Option Nat :=
  let user := (s.takeWhile isMailByte).length
  match s.drop user with
  | 64 :: host =>
      let n := hostLabelLength host
      if user == 0 || n == 0 then none
      else some (user + 1 + n + hostTailLength host.length (host.drop n))
  | _ => none

/-- The link between angle brackets at the start of a line, and whether it is a mail address. -/
def selfLink? (line : Bytes) : Option (Bytes × Bool) :=
  let s := line.drop 1
  let closes (n : Nat) : Bool := (s.drop n).head? == some '>'.toUInt8
  match mailLength? s with
  | some n => if closes n then some (s.take n, true) else none
  | none =>
      match urlLength? s with
      | some n => if closes n then some (s.take n, false) else none
      | none => none

end TagLoom.Markdown

import TagLoom.Markdown.Markup
import TagLoom.Unicode.Category
import TagLoom.Unicode.Space

/-!
# Running text

The text of a paragraph or heading as a tree: emphasis, code, links, images and line ends.
-/

namespace TagLoom.Markdown

/-- How a piece of text ends: within its line, with it, or with a forced break. -/
inductive LineEnd where
  | none
  | soft
  | hard
deriving DecidableEq

inductive Inline where
  /-- Text as it is in the source. -/
  | text (source : Bytes) (ending : LineEnd)
  | code (s : Bytes)
  | emphasis (strong : Bool) (parts : List Inline)
  | link (target : Target) (parts : List Inline)
  | image (target : Target) (parts : List Inline)
  /-- An address that links to itself. -/
  | selfLink (s : Bytes) (isMail : Bool)
  /-- Markup, which is left out. -/
  | markup
deriving Inhabited

mutual

def Inline.hasLink : Inline → Bool
  | .link _ _ => true
  | .emphasis _ ps => hasLinkIn ps
  | .image _ ps => hasLinkIn ps
  | _ => false

def Inline.hasLinkIn : List Inline → Bool
  | [] => false
  | p :: ps => p.hasLink || hasLinkIn ps

end

/-- A part under way: finished, a run of emphasis marks of which some may be used, or an opening
bracket with the place after it. -/
inductive Piece where
  | done (part : Inline)
  | marks (mark : UInt8) (count runLength : Nat) (opens closes : Bool)
  | bracket (isImage : Bool) (after : Cursor)
deriving Inhabited

namespace Piece

def ofText (s : Bytes) : Piece := .done (.text s .none)

def part : Piece → Inline
  | .done p => p
  | .marks m n _ _ _ => .text (Bytes.fill n m) .none
  | .bracket isImage _ => .text (if isImage then "![" else "[") .none

end Piece

/-! ## Emphasis -/

/-- Two runs of which one could both open and close match only under a rule on their lengths. -/
def canPair (opening closing : Nat) (eitherBoth : Bool) : Bool :=
  !(eitherBoth && (opening + closing) % 3 == 0 && closing % 3 != 0)

/-- A run of marks that a closing run matches: how many marks it has left, how many it had, and
whether it could close too. -/
structure Opener where
  count : Nat
  runLength : Nat
  closes : Bool

/-- The nearest run before a closing one that it matches, with the pieces between and the pieces
before it, all last first. -/
def opener? (mark : UInt8) (runLength : Nat) (opensToo : Bool) :
    List Piece → Option (List Piece × Opener × List Piece)
  | [] => none
  | p :: before =>
      let later := (opener? mark runLength opensToo before).map fun (between, rest) =>
        (p :: between, rest)
      match p with
      | .marks m n k o c =>
          if m == mark && o && canPair k runLength (opensToo || c) then some ([], ⟨n, k, c⟩, before)
          else later
      | _ => later

/-- Resolves emphasis in pieces; the first argument bounds the number of steps, the second holds
the pieces already looked at, last first. -/
def emphasize : Nat → List Piece → List Piece → List Piece
  | 0, seen, rest => seen.reverse ++ rest
  | _ + 1, seen, [] => seen.reverse
  | fuel + 1, seen, .marks m n k o c :: rest =>
      match if c then opener? m k o seen else none with
      | none => emphasize fuel (.marks m n k o c :: seen) rest
      | some (between, opener, before) =>
          let used := if opener.count ≥ 2 && n ≥ 2 then 2 else 1
          let part := Inline.emphasis (used == 2) (between.reverse.map Piece.part)
          let before := if opener.count > used then
              .marks m (opener.count - used) opener.runLength true opener.closes :: before
            else before
          let rest := if n > used then .marks m (n - used) k o c :: rest else rest
          emphasize fuel (.done part :: before) rest
  | fuel + 1, seen, p :: rest => emphasize fuel (p :: seen) rest

def resolve (pieces : List Piece) : List Inline :=
  let steps := pieces.foldl (fun n p => n + match p with | .marks _ m _ _ _ => m + 1 | _ => 1) 0
  (emphasize (2 * steps + 2) [] pieces).map Piece.part

def isSpaceRune (r : Utf8.Rune) : Bool := (r < 256 && isBlank r.toUInt8) || Unicode.isSpace r

def isPunctRune (r : Utf8.Rune) : Bool := (r < 256 && isPunct r.toUInt8) || Unicode.isPunctuation r

def marksPiece (mark : UInt8) (count : Nat) (before after : Utf8.Rune) : Piece :=
  let left := !isSpaceRune after && (!isPunctRune after || isSpaceRune before || isPunctRune before)
  let right := !isSpaceRune before && (!isPunctRune before || isSpaceRune after || isPunctRune after)
  if mark == '_'.toUInt8 then
    .marks mark count count (left && (!right || isPunctRune before)) (right && (!left || isPunctRune after))
  else .marks mark count count left right

/-! ## Code -/

def ticksAt? (ticks : Nat) : Nat → Nat → Bytes → Option Nat
  | 0, _, _ => none
  | _, _, [] => none
  | fuel + 1, n, c :: rest =>
      if c == 96 then
        let run := runLength 96 (c :: rest)
        if run == ticks then some n else ticksAt? ticks fuel (n + run) ((c :: rest).drop run)
      else ticksAt? ticks fuel (n + 1) rest

/-- Code loses one blank at each end when it has both and is not blank. -/
def trimCode (s : Bytes) : Bytes :=
  if s.length ≥ 2 && s.head? == some 32 && s.getLast? == some 32 && !isBlankLine s then
    (s.drop 1).dropLast
  else s

def codeSpan (c : Cursor) : Piece × Cursor :=
  let ticks := runLength 96 c.rest
  let inside := c.advance ticks
  let text := inside.remaining
  match ticksAt? ticks (text.length + 1) 0 text with
  | some n =>
      let code := (text.take n).map fun b => if b == 10 then 32 else b
      (.done (.code (trimCode code)), Cursor.skip inside.lines (n + ticks) inside)
  | none => (.ofText (Bytes.fill ticks 96), inside)

/-! ## Links -/

/-- The pieces after the last opening bracket, that bracket, and the pieces before it; both lists
last first. -/
def lastBracket? : List Piece → Option (List Piece × Bool × Cursor × List Piece)
  | [] => none
  | .bracket isImage after :: before => some ([], isImage, after, before)
  | p :: before => (lastBracket? before).map fun (inside, rest) => (p :: inside, rest)

/-- The target that follows a closing bracket, with the place after it. -/
inductive LinkEnd where
  | target (t : Target) (after : Cursor)
  /-- A label follows that is not defined. -/
  | unknown
  | missing

/-- What a label of its own after the closing bracket says; an empty one stands for the label
before. -/
def labelTarget (defs : Definitions) (before : Bytes) (c : Cursor) : LinkEnd :=
  match enclosed '['.toUInt8 ']'.toUInt8 (c.advance 1) with
  | (none, _) => .missing
  | (some label, after) =>
      let label := if isBlankLine label then before else label
      match if label.length > 999 then none else defs.find? label with
      | some t => .target t after
      | none => .unknown

/-- The target of a link whose text is in brackets: the place after the closing one, and the source
between them. -/
def linkEnd (defs : Definitions) (label : Bytes) (c : Cursor) : LinkEnd :=
  let shortcut : LinkEnd :=
    match defs.find? label with
    | some t => .target t c
    | none => .unknown
  let given : LinkEnd :=
    if c.peek == some '('.toUInt8 then
      match inlineTarget? c with
      | some (t, after) => .target t after
      | none => .missing
    else if c.peek == some '['.toUInt8 then labelTarget defs label c
    else .missing
  match given with
  | .missing => shortcut
  | found => found

/-- A closing bracket: the pieces with the link it ends, and the place after.  When it ends none, the
bracket before it is text. -/
def closeBracket (defs : Definitions) (acc : List Piece) (c : Cursor) : List Piece × Option Cursor :=
  match lastBracket? acc with
  | none => (acc, none)
  | some (inside, isImage, start, before) =>
      let plain := inside ++ Piece.ofText (if isImage then "![" else "[") :: before
      let parts := resolve inside.reverse
      if !isImage && Inline.hasLinkIn parts then (plain, none)
      else match linkEnd defs (Cursor.sourceBetween c start.lines start.rest) (c.advance 1) with
        | .target t after =>
            (.done (if isImage then .image t parts else .link t parts) :: before, some after)
        | _ => (plain, none)

/-! ## Scanning -/

def isTrigger (c : UInt8) : Bool := ([96, 33, 91, 93, 60, 42, 95] : List UInt8).contains c

/-- Reads what starts at a cursor, if it is not text: the pieces then, last first, and the place
after it. -/
def readSpecial (defs : Definitions) (acc : List Piece) (c : Cursor) : List Piece × Option Cursor :=
  match c.rest with
  | 96 :: _ => let (p, after) := codeSpan c; (p :: acc, some after)
  | 33 :: 91 :: _ => let after := c.advance 2; (.bracket true after :: acc, some after)
  | 91 :: _ => let after := c.advance 1; (.bracket false after :: acc, some after)
  | 93 :: _ => closeBracket defs acc c
  | 60 :: _ =>
      match selfLink? c.rest with
      | some (s, isMail) => (.done (.selfLink s isMail) :: acc, some (c.advance (s.length + 2)))
      | none =>
          match afterMarkup? c with
          | some after => (.done .markup :: acc, some after)
          | none => (acc, none)
  | b :: _ =>
      if b == 42 || b == 95 then
        let n := runLength b c.rest
        let after := if n == c.rest.length then 32 else (Utf8.decode (c.rest.drop n)).1
        (marksPiece b n c.before after :: acc, some (c.advance n))
      else (acc, none)
  | [] => (acc, none)

/-- How many bytes of a line are text, how it ends, and whether blanks at the end of its text are
kept. -/
def lineShape (line : Bytes) : Nat × LineEnd × Bool :=
  let n := line.length
  match line.reverse with
  | [10, 92] => (0, .hard, true)
  | [10, 13, 92] => (0, .hard, true)
  | 10 :: 92 :: c :: _ => if c == 92 then (n, .soft, false) else (n - 2, .hard, true)
  | 10 :: 13 :: 92 :: c :: _ => if c == 92 then (n, .soft, false) else (n - 3, .hard, true)
  | 10 :: 32 :: 32 :: _ => (n - 3, .hard, false)
  | 10 :: 13 :: 32 :: 32 :: _ => (n - 4, .hard, false)
  | 10 :: _ => (n, .soft, false)
  | _ => (n, .none, false)

/-- The state of a scan: the place, the pieces so far, last first, the text since the last one,
backwards, whether a backslash comes before, and whether the text has just begun. -/
structure Scan where
  cursor : Cursor
  pieces : List Piece
  text : Bytes
  escaped : Bool
  begins : Bool
  /-- The number of bytes up to the end of the text of the line. -/
  left : Nat
  ending : LineEnd
  keepsBlanks : Bool

namespace Scan

/-- Begins at a place, with the shape of what is left of its line. -/
def start (c : Cursor) (pieces : List Piece) (escaped : Bool) : Scan :=
  let (left, ending, keepsBlanks) := lineShape c.rest
  ⟨c, pieces, [], escaped, true, left, ending, keepsBlanks⟩

def flushed (s : Scan) : List Piece :=
  if s.text.isEmpty then s.pieces else .ofText s.text.reverse :: s.pieces

def take (s : Scan) : Scan :=
  let size := (Utf8.decode s.cursor.rest).2
  let taken := s.cursor.rest.take size
  { s with
    cursor := s.cursor.advance size, text := taken.reverse ++ s.text, begins := false
    left := s.left - size, escaped := !s.escaped && taken == [92] }

def lineEnd (s : Scan) : List Piece :=
  let text := s.text.reverse
  .done (.text (if s.keepsBlanks then text else trimRight text) s.ending) :: s.pieces

/-- Scans to the end of the text.  The count bounds the number of steps. -/
def run (defs : Definitions) : Nat → Scan → List Piece
  | 0, s => s.flushed
  | fuel + 1, s =>
      if s.cursor.atEnd && s.begins then s.pieces
      else match s.cursor.rest with
        | [] => s.lineEnd
        | b :: _ =>
            if s.left == 0 || b == 10 then
              let next := s.cursor.nextLine
              if next.atEnd then s.lineEnd else run defs fuel (start next s.lineEnd s.escaped)
            else if isTrigger b && (!s.escaped || s.begins) then
              match readSpecial defs s.flushed s.cursor with
              | (pieces, some after) => run defs fuel (start after pieces s.escaped)
              | (pieces, none) =>
                  run defs fuel (({ s with pieces, text := [], escaped := false } : Scan).take)
            else run defs fuel s.take

end Scan

def parseInline (defs : Definitions) (lines : List TextLine) : List Inline :=
  let c := Cursor.ofLines lines
  let steps := 2 * (c.remaining.length + lines.length) + 2
  resolve (Scan.run defs steps (Scan.start c [] false)).reverse

end TagLoom.Markdown

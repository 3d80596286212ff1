import TagLoom.Yaml
import TagLoom.Bytes.Utf8

/-!
# Tokens of YAML

A document is cut into tokens.  Indentation becomes tokens that open and close blocks.  A key is
known to be one only when its colon comes, so the place where it started is remembered and the token
for the key is put there afterwards.
-/

namespace TagLoom

inductive YamlToken where
  | directive
  | documentStart
  | documentEnd
  | blockSequence
  | blockMapping
  | blockEnd
  | flowSequence
  | flowSequenceEnd
  | flowMapping
  | flowMappingEnd
  | blockEntry
  | flowEntry
  | key
  | value
  | alias (name : Bytes)
  | anchor (name : Bytes)
  | tag (text : Bytes)
  | scalar (plain : Bool) (text : Bytes)
  /-- The text cannot be cut any further. -/
  | flaw
deriving DecidableEq, Inhabited

namespace YamlToken

/-! ## Characters -/

def isAllowed (r : Nat) : Bool :=
  r == 0x09 || r == 0x0A || r == 0x0D || (0x20 ≤ r && r ≤ 0x7E) || r == 0x85 ||
    (0xA0 ≤ r && r ≤ 0xD7FF) || (0xE000 ≤ r && r ≤ 0xFFFD && r != 0xFEFF) || 0x10000 ≤ r

def isBlank (r : Nat) : Bool := r == 0x20 || r == 0x09

/-- Whether a character ends a line; the other line ends have become newlines. -/
def isBreak (r : Nat) : Bool := r == 0x0A || r == 0x2028 || r == 0x2029

/-- Whether a text is at a blank, at the end of a line or at its own end. -/
def atGap : List Nat → Bool
  | [] => true
  | r :: _ => isBlank r || isBreak r

def unifyBreaks : List Nat → List Nat
  | [] => []
  | 0x0D :: 0x0A :: rest => 0x0A :: unifyBreaks rest
  | r :: rest => (if r == 0x0D || r == 0x85 then 0x0A else r) :: unifyBreaks rest

def characters? (s : Bytes) : Option (List Nat) :=
  let s := Bytes.trimStart s [0xEF, 0xBB, 0xBF]
  let rs := Utf8.runes s
  if Utf8.isValid s && rs.all isAllowed then some (unifyBreaks rs) else none

def isFlowMark (r : Nat) : Bool :=
  r == ','.toNat || r == '?'.toNat || r == '['.toNat || r == ']'.toNat || r == '\x7b'.toNat ||
    r == '\x7d'.toNat

def isIndicator (r : Nat) : Bool :=
  isFlowMark r || ("-:#&*!|>'\"%@\x60".toList.map Char.toNat).contains r

/-! ## Scanners -/

structure KeyStart where
  /-- Whether nothing but a key can stand there. -/
  required : Bool
  /-- The number of tokens before it. -/
  token : Nat
  line : Nat
  column : Nat
  index : Nat
deriving DecidableEq

structure Scanner where
  rest : List Nat
  line : Nat
  column : Nat
  index : Nat
  /-- The column of the innermost block; negative outside of blocks. -/
  indent : Int
  /-- The columns of the blocks around it. -/
  outer : List Int
  /-- For each open flow collection, and for the document, the place where a key may have
  started; the innermost comes first. -/
  keys : List (Option KeyStart)
  /-- Whether a key may start here. -/
  keyAllowed : Bool
  tokens : List YamlToken

namespace Scanner

def ofCharacters (rs : List Nat) : Scanner := ⟨rs, 0, 0, 0, -1, [], [none], true, []⟩

def inFlow (s : Scanner) : Bool := s.keys.length > 1

def skip (s : Scanner) (n : Nat) : Scanner :=
  { s with rest := s.rest.drop n, column := s.column + n, index := s.index + n }

def skipBreak (s : Scanner) : Scanner :=
  { s with rest := s.rest.drop 1, line := s.line + 1, column := 0, index := s.index + 1 }

def emit (s : Scanner) (t : YamlToken) : Scanner := { s with tokens := s.tokens ++ [t] }

def emitAt (s : Scanner) (n : Nat) (t : YamlToken) : Scanner :=
  { s with tokens := s.tokens.take n ++ t :: s.tokens.drop n }

/-- Whether three equal characters at the start of a line mark the bounds of a document. -/
def atMark (s : Scanner) (r : Nat) : Bool :=
  s.column == 0 && s.rest.take 3 == [r, r, r] && atGap (s.rest.drop 3)

def atDocumentMark (s : Scanner) : Bool := s.atMark '-'.toNat || s.atMark '.'.toNat

/-! ## Keys -/

def keyLimit : Nat := 1024

def isFresh (s : Scanner) (k : KeyStart) : Bool := k.line == s.line && s.index ≤ k.index + keyLimit

/-- Gives up places where no key started after all.  That is a mistake where only a key could
stand. -/
def dropStale (s : Scanner) : Option Scanner :=
  if s.keys.any fun k => (k.map fun k => !s.isFresh k && k.required).getD false then none
  else some { s with keys := s.keys.map fun k => k.filter s.isFresh }

def dropKey (s : Scanner) : Option Scanner :=
  match s.keys with
  | some k :: more => if k.required then none else some { s with keys := none :: more }
  | _ => some s

def saveKey (s : Scanner) : Option Scanner :=
  if !s.keyAllowed then some s
  else do
    let s ← s.dropKey
    let required := !s.inFlow && s.indent == s.column
    let k : KeyStart := ⟨required, s.tokens.length, s.line, s.column, s.index⟩
    return { s with keys := some k :: s.keys.drop 1 }

/-! ## Blocks -/

/-- Opens a block that starts further to the right, its token being put at a place. -/
def openBlock (s : Scanner) (column place : Nat) (t : YamlToken) : Scanner :=
  if s.inFlow || s.indent ≥ column then s
  else { s.emitAt place t with outer := s.indent :: s.outer, indent := column }

def closeBlocks (column : Int) : List Int → Scanner → Scanner
  | [], s => s
  | above :: more, s =>
      if s.inFlow || s.indent ≤ column then s
      else closeBlocks column more { s.emit .blockEnd with indent := above, outer := more }

/-! ## Between tokens -/

/-- Passes over blanks, comments and line ends.  The count bounds the number of steps. -/
def skipGap : Nat → Scanner → Scanner
  | 0, s => s
  | fuel + 1, s =>
      match s.rest with
      | [] => s
      | r :: _ =>
          if r == 0x20 || (r == 0x09 && (s.inFlow || !s.keyAllowed)) then skipGap fuel (s.skip 1)
          else if r == '#'.toNat then skipGap fuel (s.skip (s.rest.takeWhile (!isBreak ·)).length)
          else if isBreak r then
            skipGap fuel { s.skipBreak with keyAllowed := s.keyAllowed || !s.inFlow }
          else s

/-! ## Scalars -/

/-- Blanks and line ends inside a scalar. -/
structure Gap where
  blanks : List Nat
  /-- The first line end; nothing of it is left when it was escaped. -/
  first : Option (List Nat)
  more : List Nat

def Gap.none : Gap := ⟨[], Option.none, []⟩

/-- What is left of a gap: one line end becomes a space, and of several the first is dropped. -/
def Gap.folded (g : Gap) : List Nat :=
  match g.first with
  | Option.none => g.blanks
  | some first => if first == [0x0A] then (if g.more.isEmpty then [0x20] else g.more) else first ++ g.more

/-- Reads a gap.  In a plain scalar a tab may not stand for indentation.  The count bounds the
length. -/
def readGap (plain : Bool) : Nat → Scanner → Gap → Option (Scanner × Gap)
  | 0, s, g => some (s, g)
  | fuel + 1, s, g =>
      match s.rest with
      | [] => some (s, g)
      | r :: _ =>
          if isBlank r then
            if plain && r == 0x09 && g.first.isSome && (s.column : Int) ≤ s.indent then Option.none
            else readGap plain fuel (s.skip 1)
              (if g.first.isSome then g else { g with blanks := g.blanks ++ [r] })
          else if isBreak r then
            readGap plain fuel s.skipBreak
              (if g.first.isSome then { g with more := g.more ++ [r] } else ⟨[], some [r], []⟩)
          else some (s, g)

def plainRun (flow : Bool) : List Nat → List Nat
  | [] => []
  | r :: rest =>
      if isBlank r || isBreak r || (r == ':'.toNat && atGap rest) || (flow && isFlowMark r) then []
      else r :: plainRun flow rest

/-- Reads a plain scalar; it may go on over lines that are indented enough.  The count bounds the
number of runs. -/
def readPlain : Nat → Scanner → List Nat → Gap → Option (Scanner × List Nat × Gap)
  | 0, s, text, g => some (s, text, g)
  | fuel + 1, s, text, g =>
      if s.atDocumentMark || s.rest.head? == some '#'.toNat then some (s, text, g)
      else
        let run := plainRun s.inFlow s.rest
        let (text, g) := if run.isEmpty then (text, g) else (text ++ g.folded ++ run, Gap.none)
        let s := s.skip run.length
        if s.rest.isEmpty || !atGap s.rest then some (s, text, g)
        else do
          let (s, g) ← readGap true s.rest.length s g
          if !s.inFlow && (s.column : Int) ≤ s.indent then some (s, text, g)
          else readPlain fuel s text g

/-- The character a letter stands for after a backslash. -/
def escape? (r : Nat) : Option Nat :=
  (([('0', 0), ('a', 7), ('b', 8), ('t', 9), ('\t', 9), ('n', 10), ('v', 11), ('f', 12), ('r', 13),
    ('e', 27), (' ', 32), ('"', 34), ('\'', 39), ('/', 47), ('\\', 92), ('N', 0x85), ('_', 0xA0),
    ('L', 0x2028), ('P', 0x2029)] : List (Char × Nat)).find? (·.1.toNat == r)).map (·.2)

def escapeWidth? (r : Nat) : Option Nat :=
  if r == 'x'.toNat then some 2 else if r == 'u'.toNat then some 4
  else if r == 'U'.toNat then some 8 else none

/-- The character an escape stands for after its backslash, and the length of the escape. -/
def readEscape? (rest : List Nat) : Option (Nat × Nat) := do
  let r ← rest.head?
  match escapeWidth? r with
  | some width =>
      let digits := (rest.drop 1).take width
      if digits.length < width || digits.any (· ≥ 0x80) then none
      let n ← Decimal.readNat? 16 (digits.map Nat.toUInt8)
      if Utf8.isSurrogate n || n > 0x10FFFF then none
      return (n, width + 1)
  | Option.none => (escape? r).map fun n => (n, 1)

/-- Reads the rest of a quoted scalar after its opening quote.  The count bounds the number of
characters. -/
def readQuoted (single : Bool) : Nat → Scanner → List Nat → Option (Scanner × List Nat)
  | 0, _, _ => none
  | fuel + 1, s, text =>
      match s.rest with
      | [] => none
      | r :: rest =>
          if s.atDocumentMark then none
          else if single && r == '\''.toNat then
            if rest.head? == some r then readQuoted single fuel (s.skip 2) (text ++ [r])
            else some (s.skip 1, text)
          else if !single && r == '"'.toNat then some (s.skip 1, text)
          else if !single && r == '\\'.toNat then
            if (rest.head?.map isBreak).getD false then do
              let (s, g) ← readGap false rest.length (s.skip 1).skipBreak ⟨[], some [], []⟩
              readQuoted single fuel s (text ++ g.folded)
            else do
              let (n, size) ← readEscape? rest
              readQuoted single fuel (s.skip (size + 1)) (text ++ [n])
          else if isBlank r || isBreak r then do
            let (s, g) ← readGap false s.rest.length s Gap.none
            readQuoted single fuel s (text ++ g.folded)
          else readQuoted single fuel (s.skip 1) (text ++ [r])

/-! ## Block scalars -/

/-- What happens to the line ends at the end of a block scalar. -/
inductive Chomp where
  | strip
  | clip
  | keep
deriving DecidableEq

def chomp? (r : Nat) : Option Chomp :=
  if r == '+'.toNat then some .keep else if r == '-'.toNat then some .strip else none

def step? (r : Nat) : Option Nat := if '1'.toNat ≤ r && r ≤ '9'.toNat then some (r - 48) else none

/-- The marks after the sign of a block scalar: the chomping and the indentation, in either order,
and how many there are. -/
def blockMarks (rest : List Nat) : Chomp × Nat × Nat :=
  match rest.head?.bind chomp?, rest.head?.bind step? with
  | some c, _ => match (rest.drop 1).head?.bind step? with
    | some n => (c, n, 2)
    | none => (c, 0, 1)
  | none, some n => match (rest.drop 1).head?.bind chomp? with
    | some c => (c, n, 2)
    | none => (.clip, n, 1)
  | none, none => (.clip, 0, 0)

/-- Passes over indentation and empty lines of a block scalar: the line ends passed, and the furthest
column reached.  An indentation of 0 is not known yet.  The count bounds the number of steps. -/
def blockBreaks (indent : Nat) : Nat → Scanner → List Nat → Nat → Option (Scanner × List Nat × Nat)
  | 0, s, breaks, far => some (s, breaks, far)
  | fuel + 1, s, breaks, far =>
      let spaces := (s.rest.takeWhile (· == 0x20)).length
      let s := s.skip (if indent == 0 then spaces else min spaces (indent - s.column))
      let far := max far s.column
      match s.rest with
      | r :: _ =>
          if r == 0x09 && (indent == 0 || s.column < indent) then none
          else if isBreak r then blockBreaks indent fuel s.skipBreak (breaks ++ [r]) far
          else some (s, breaks, far)
      | [] => some (s, breaks, far)

structure BlockText where
  text : List Nat
  /-- The line end after the last line. -/
  last : List Nat
  /-- The line ends of empty lines after it. -/
  breaks : List Nat
  /-- Whether the last line starts with a blank. -/
  blank : Bool

/-- Reads the lines of a block scalar.  In a folded one a single line end between lines that do not
start with a blank becomes a space.  The count bounds the number of lines. -/
def blockLines (folded : Bool) (indent : Nat) : Nat → Scanner → BlockText → Option (Scanner × BlockText)
  | 0, s, b => some (s, b)
  | fuel + 1, s, b =>
      if s.rest.isEmpty || s.column != indent then some (s, b)
      else do
        let blank := (s.rest.head?.map isBlank).getD false
        let joint := if folded && !b.blank && !blank && b.last == [0x0A]
          then (if b.breaks.isEmpty then [0x20] else []) else b.last
        let line := s.rest.takeWhile (!isBreak ·)
        let s := s.skip line.length
        let last := s.rest.take 1
        let s := if last.isEmpty then s else s.skipBreak
        let (s, breaks, _) ← blockBreaks indent (s.rest.length + 1) s [] 0
        blockLines folded indent fuel s ⟨b.text ++ joint ++ b.breaks ++ line, last, breaks, blank⟩

def readBlock (folded : Bool) (s : Scanner) : Option (Scanner × List Nat) := do
  let (chomp, step, marks) := blockMarks s.rest
  let s := s.skip marks
  let s := s.skip (s.rest.takeWhile isBlank).length
  let s := if s.rest.head? == some '#'.toNat then s.skip (s.rest.takeWhile (!isBreak ·)).length else s
  if !s.rest.isEmpty && !(s.rest.head?.map isBreak).getD false then none
  let s := if s.rest.isEmpty then s else s.skipBreak
  let given := if step == 0 then 0 else if s.indent ≥ 0 then s.indent.toNat + step else step
  let (s, breaks, far) ← blockBreaks given (s.rest.length + 1) s [] 0
  let indent := if given == 0 then max (max far (s.indent + 1).toNat) 1 else given
  let (s, b) ← blockLines folded indent (s.rest.length + 1) s ⟨[], [], breaks, false⟩
  return (s, b.text ++ (if chomp == .strip then [] else b.last) ++
    (if chomp == .keep then b.breaks else []))

/-! ## Tokens -/

/-- Reads the bounds of a document or a directive: all blocks are closed first. -/
def fetchBounds (s : Scanner) (size : Nat) (t : YamlToken) : Option Scanner := do
  let s ← (closeBlocks (-1) s.outer s).dropKey
  return { (s.skip size).emit t with keyAllowed := false }

def fetchFlowStart (s : Scanner) (t : YamlToken) : Option Scanner := do
  let s ← s.saveKey
  return { (s.skip 1).emit t with keys := none :: s.keys, keyAllowed := true }

def fetchFlowEnd (s : Scanner) (t : YamlToken) : Option Scanner := do
  let s ← s.dropKey
  let keys := if s.inFlow then s.keys.drop 1 else s.keys
  return { (s.skip 1).emit t with keys, keyAllowed := false }

def fetchFlowEntry (s : Scanner) : Option Scanner := do
  let s ← s.dropKey
  return { (s.skip 1).emit .flowEntry with keyAllowed := true }

def fetchBlockEntry (s : Scanner) : Option Scanner := do
  if !s.inFlow && !s.keyAllowed then none
  let s := s.openBlock s.column s.tokens.length .blockSequence
  let s ← s.dropKey
  return { (s.skip 1).emit .blockEntry with keyAllowed := true }

def fetchKey (s : Scanner) : Option Scanner := do
  if !s.inFlow && !s.keyAllowed then none
  let s := s.openBlock s.column s.tokens.length .blockMapping
  let s ← s.dropKey
  return { (s.skip 1).emit .key with keyAllowed := !s.inFlow }

def fetchValue (s : Scanner) : Option Scanner :=
  match s.keys with
  | some k :: more =>
      let s := (s.emitAt k.token .key).openBlock k.column k.token .blockMapping
      some { (s.skip 1).emit .value with keys := none :: more, keyAllowed := false }
  | _ =>
      if !s.inFlow && !s.keyAllowed then none
      else
        let s := s.openBlock s.column s.tokens.length .blockMapping
        some { (s.skip 1).emit .value with keyAllowed := !s.inFlow }

def isNameCharacter (r : Nat) : Bool :=
  r < 0x80 && (Bytes.isLetter r.toUInt8 || Bytes.isDigit r.toUInt8 || r == '_'.toNat || r == '-'.toNat)

def fetchName (s : Scanner) (token : Bytes → YamlToken) : Option Scanner := do
  let s ← s.saveKey
  let name := (s.rest.drop 1).takeWhile isNameCharacter
  let after := s.rest.drop (name.length + 1)
  let ends := atGap after || ((after.head?.map fun r =>
    ("?:,]\x7d%@\x60".toList.map Char.toNat).contains r).getD false)
  if name.isEmpty || !ends then none
  return { (s.skip (name.length + 1)).emit (token (Utf8.ofRunes name)) with keyAllowed := false }

def fetchTag (s : Scanner) : Option Scanner := do
  let s ← s.saveKey
  let text := s.rest.takeWhile fun r => !isBlank r && !isBreak r && !(s.inFlow && isFlowMark r)
  return { (s.skip text.length).emit (.tag (Utf8.ofRunes text)) with keyAllowed := false }

def fetchBlockScalar (s : Scanner) (folded : Bool) : Option Scanner := do
  let s ← s.dropKey
  let (s, text) ← readBlock folded (s.skip 1)
  return { s.emit (.scalar false (Utf8.ofRunes text)) with keyAllowed := true }

def fetchQuoted (s : Scanner) (single : Bool) : Option Scanner := do
  let s ← s.saveKey
  let s := { s with keyAllowed := false }
  let (s, text) ← readQuoted single s.rest.length (s.skip 1) []
  return s.emit (.scalar false (Utf8.ofRunes text))

def fetchPlain (s : Scanner) : Option Scanner := do
  let s ← s.saveKey
  let s := { s with keyAllowed := false }
  let (s, text, g) ← readPlain (s.rest.length + 1) s [] Gap.none
  return { s.emit (.scalar true (Utf8.ofRunes text)) with keyAllowed := g.first.isSome }

def startsPlain (flow : Bool) (r : Nat) (rest : List Nat) : Bool :=
  !(isBlank r || isIndicator r) || (r == '-'.toNat && !(rest.head?.map isBlank).getD false) ||
    (!flow && (r == '?'.toNat || r == ':'.toNat) && !atGap rest)

/-- Reads a directive; only those for the version and for tags are known. -/
def fetchDirective (s : Scanner) : Option Scanner :=
  let line := Utf8.ofRunes (s.rest.takeWhile (!isBreak ·))
  if Bytes.startsWith line "%YAML 1.1" || Bytes.startsWith line "%YAML 1.2" ||
      Bytes.startsWith line "%TAG " then
    s.fetchBounds (s.rest.takeWhile (!isBreak ·)).length .directive
  else none

/-- Reads the next token; the text starts with it. -/
def fetch (s : Scanner) : Option Scanner :=
  match s.rest with
  | [] => none
  | r :: rest =>
      if s.column == 0 && r == '%'.toNat then s.fetchDirective
      else if s.atMark '-'.toNat then s.fetchBounds 3 .documentStart
      else if s.atMark '.'.toNat then s.fetchBounds 3 .documentEnd
      else if r == '['.toNat then s.fetchFlowStart .flowSequence
      else if r == '\x7b'.toNat then s.fetchFlowStart .flowMapping
      else if r == ']'.toNat then s.fetchFlowEnd .flowSequenceEnd
      else if r == '\x7d'.toNat then s.fetchFlowEnd .flowMappingEnd
      else if r == ','.toNat then s.fetchFlowEntry
      else if r == '-'.toNat && atGap rest then s.fetchBlockEntry
      else if r == '?'.toNat && (s.inFlow || atGap rest) then s.fetchKey
      else if r == ':'.toNat && (s.inFlow || atGap rest) then s.fetchValue
      else if r == '*'.toNat then s.fetchName .alias
      else if r == '&'.toNat then s.fetchName .anchor
      else if r == '!'.toNat then s.fetchTag
      else if r == '|'.toNat && !s.inFlow then s.fetchBlockScalar false
      else if r == '>'.toNat && !s.inFlow then s.fetchBlockScalar true
      else if r == '\''.toNat then s.fetchQuoted true
      else if r == '"'.toNat then s.fetchQuoted false
      else if startsPlain s.inFlow r rest then s.fetchPlain
      else none

def toNext (s : Scanner) : Option Scanner :=
  ((skipGap s.rest.length s).dropStale).map fun s => closeBlocks s.column s.outer s

/-- The tokens from a scanner on; a flaw ends them.  The count bounds their number. -/
def run : Nat → Scanner → List YamlToken
  | 0, s => s.tokens ++ [.flaw]
  | fuel + 1, s =>
      match s.toNext with
      | none => s.tokens ++ [.flaw]
      | some s =>
          if s.rest.isEmpty then
            match (closeBlocks (-1) s.outer s).dropKey with
            | some s => s.tokens
            | none => s.tokens ++ [.flaw]
          else match s.fetch with
            | some s => run fuel s
            | none => s.tokens ++ [.flaw]

end Scanner

def ofCharacters (rs : List Nat) : List YamlToken := (Scanner.ofCharacters rs).run (rs.length + 1)

end YamlToken

end TagLoom

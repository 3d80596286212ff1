import TagLoom.Template.Name

/-!
# Tokens of templates

A template source is cut into text, interpolations, and the opening and closing tags of
the elements that belong to the compiler.  All other markup is text.  The cut needs no
knowledge of nesting: inside `script` and `style` elements and inside comments everything is
text up to the closing mark, and which bytes those are depends on what stands before them
only.
-/

/-!
## Finding closing marks

The extents of brace groups, quoted values and tags.  All functions look at the text from
some place on and answer with offsets relative to that place.
-/

namespace TagLoom.Scan

def isQuote (c : UInt8) : Bool := c == '"'.toUInt8 || c == '\''.toUInt8 || c == 0x60

/-- Where the text literal ends whose opening quote was just read: the offset of the closing
quote, or of where the search gave up.  A backslash hides the byte after it, except between
backquotes.  With `sameLine` a newline ends the search. -/
@[grind =] def skipText (quote : UInt8) (sameLine : Bool) : Bytes → Nat × Bool
  | [] => (0, false)
  | c :: rest =>
      if c == '\\'.toUInt8 && quote != 0x60 then
        match rest with
        | [] => (1, false)
        | _ :: rest =>
            let (n, ok) := skipText quote sameLine rest
            (n + 2, ok)
      else if c == quote then (0, true)
      else if c == '\n'.toUInt8 && sameLine then (0, false)
      else
        let (n, ok) := skipText quote sameLine rest
        (n + 1, ok)

/-- Where the braces open at `depth` are all closed: the offset of the last closing brace, or
of where the search gave up.  Braces inside text literals do not count. -/
@[grind =] def closeBraces (sameLine : Bool) (depth : Nat) : Bytes → Nat × Bool
  | [] => (0, false)
  | c :: rest =>
      if c == '\x7b'.toUInt8 then
        let (n, ok) := closeBraces sameLine (depth + 1) rest
        (n + 1, ok)
      else if c == '\x7d'.toUInt8 then
        if depth ≤ 1 then (0, true)
        else
          let (n, ok) := closeBraces sameLine (depth - 1) rest
          (n + 1, ok)
      else if c == '\n'.toUInt8 && sameLine then (0, false)
      else if isQuote c then
        let (n, ok) := skipText c sameLine rest
        if ok then
          let (m, ok) := closeBraces sameLine depth (rest.drop (n + 1))
          (m + n + 2, ok)
        else (n + 1, false)
      else
        let (n, ok) := closeBraces sameLine depth rest
        (n + 1, ok)
  termination_by s => s.length
  decreasing_by
    all_goals simp only [List.length_drop, List.length_cons]; omega

/-- The brace group at the start of a text: the offset of its closing brace, or of where the
search gave up. -/
@[grind =] def braces (sameLine : Bool) (s : Bytes) : Nat × Bool := closeBraces sameLine 0 s

/-- The offset just past the end of the tag this place is inside of.  Quoted values and brace
groups are skipped; an unfinished tag reaches to the end. -/
@[grind =] def tagEnd : Bytes → Nat
  | [] => 0
  | c :: rest =>
      if c == '>'.toUInt8 then 1
      else if c == '"'.toUInt8 || c == '\''.toUInt8 then
        match rest.findIdx? (· == c) with
        | none => rest.length + 1
        | some j => tagEnd (rest.drop (j + 1)) + j + 2
      else if c == '\x7b'.toUInt8 then
        match closeBraces false 1 rest with
        | (_, false) => rest.length + 1
        | (j, true) => tagEnd (rest.drop (j + 1)) + j + 2
      else tagEnd rest + 1
  termination_by s => s.length
  decreasing_by
    all_goals simp only [List.length_drop, List.length_cons]; omega

/-- The offset of the quote that closes an attribute value whose opening quote was just read.
Quotes inside brace groups do not close it. -/
@[grind =] def quoted? (quote : UInt8) : Bytes → Option Nat
  | [] => none
  | c :: rest =>
      if c == '\\'.toUInt8 then
        if rest.head? == some '\x7b'.toUInt8 then (quoted? quote (rest.drop 1)).map (· + 2)
        else (quoted? quote rest).map (· + 1)
      else if c == '\x7b'.toUInt8 then
        match closeBraces false 1 rest with
        | (_, false) => none
        | (j, true) => (quoted? quote (rest.drop (j + 1))).map (· + j + 2)
      else if c == quote then some 0
      else (quoted? quote rest).map (· + 1)
  termination_by s => s.length
  decreasing_by
    all_goals simp only [List.length_drop, List.length_cons]; omega

end TagLoom.Scan

/-! ## Tokens -/

namespace TagLoom.Template

inductive AttrValue where
  | bare
  | quoted (offset : Nat) (value : Bytes)
  | braced (value : Bytes)
deriving DecidableEq

structure Attr where
  offset : Nat
  name : Bytes
  value : AttrValue
deriving DecidableEq

inductive TagProblem where
  | unterminated
  | malformedAttr
  | unquotedValue (attr : Bytes)
  | openValue (attr : Bytes)
deriving DecidableEq

inductive Token where
  | text (offset : Nat) (text : Bytes)
  /-- The source between the braces; `none` when the group does not close on its line. -/
  | interpolation (offset : Nat) (source : Option Bytes)
  | opening (offset : Nat) (name : Bytes) (attrs : List Attr) (problem : Option (Nat × TagProblem))
      (selfClosing : Bool)
  | closing (offset : Nat) (name : Bytes) (malformed : Bool)
deriving DecidableEq

/-- The attributes of an opening tag, what ended them early, whether the element has no
content, and the length of what was read. -/
structure TagTail where
  attrs : List Attr
  problem : Option (Nat × TagProblem)
  selfClosing : Bool
  length : Nat

namespace TagTail

def consAttr (a : Attr) (n : Nat) (tail : TagTail) : TagTail :=
  { tail with attrs := a :: tail.attrs, length := tail.length + n }

def skip (problem : Nat × TagProblem) (n : Nat) (s : Bytes) : TagTail :=
  let k := Scan.tagEnd s
  ⟨[], some problem, Bytes.endsWith (s.take k) "/>", n + k⟩

/-- The tail that goes on after the first `>` or newline past an open value; a newline makes
the element an empty one. -/
def resync (problem : Nat × TagProblem) (n : Nat) (s : Bytes) : TagTail :=
  match (s.drop 1).findIdx? (fun c => c == '>'.toUInt8 || c == '\n'.toUInt8) with
  | none => ⟨[], some problem, true, n + s.length⟩
  | some i =>
      let body := s.take (i + 1)
      let newline := (s.drop (i + 1)).head? == some '\n'.toUInt8
      ⟨[], some problem, newline || Bytes.endsWith body "/", n + i + 2⟩

end TagTail

@[grind =] def lexAttrs (offset : Nat) (s : Bytes) : TagTail :=
  let gap := (s.takeWhile Name.isSpace).length
  match _h : s.dropWhile Name.isSpace with
  | [] => ⟨[], some (0, .unterminated), true, gap⟩
  | c :: rest =>
      if c == '>'.toUInt8 then ⟨[], none, false, gap + 1⟩
      else if Bytes.startsWith (c :: rest) "/>" then ⟨[], none, true, gap + 2⟩
      else
        let start := offset + gap
        let name := Name.leading (c :: rest)
        if name.isEmpty then TagTail.skip (start, .malformedAttr) gap (c :: rest)
        else
          let n := name.length
          let after := rest.drop (n - 1)
          let space := (after.takeWhile Name.isSpace).length
          match after.dropWhile Name.isSpace with
          | [] => (lexAttrs (start + n) after).consAttr ⟨start, name, .bare⟩ (gap + n)
          | e :: value =>
              if e != '='.toUInt8 then
                (lexAttrs (start + n) after).consAttr ⟨start, name, .bare⟩ (gap + n)
              else
                let space' := (value.takeWhile Name.isSpace).length
                let k := n + space + 1 + space'
                let value := value.dropWhile Name.isSpace
                match value with
                | [] => TagTail.skip (start + k, .unquotedValue name) (gap + k) value
                | q :: inner =>
                    if q == '"'.toUInt8 || q == '\''.toUInt8 then
                      match Scan.quoted? q inner with
                      | none => TagTail.resync (start + k, .openValue name) (gap + k) value
                      | some m =>
                          (lexAttrs (start + k + m + 2) (rest.drop (k + m + 1))).consAttr
                            ⟨start, name, .quoted (start + k + 1) (inner.take m)⟩ (gap + k + m + 2)
                    else if q == '\x7b'.toUInt8 then
                      match Scan.braces false value with
                      | (_, false) => TagTail.resync (start + k, .openValue name) (gap + k) value
                      | (m, true) =>
                          (lexAttrs (start + k + m + 1) (rest.drop (k + m))).consAttr
                            ⟨start, name, .braced (inner.take (m - 1))⟩ (gap + k + m + 1)
                    else TagTail.skip (start + k, .unquotedValue name) (gap + k) value
  termination_by s.length
  decreasing_by
    all_goals
      have hlen : (s.dropWhile Name.isSpace).length ≤ s.length :=
        (List.dropWhile_suffix _).sublist.length_le
      rw [_h] at hlen
      simp only [List.length_cons] at hlen
      simp only [List.length_drop]
      omega

/-- A pending raw-text element: from the given offset on, everything up to its closing tag is
text. -/
structure RawText where
  name : Bytes
  start : Nat
deriving DecidableEq

/-- The offset of the first occurrence of a needle in any letter case, or the length. -/
def indexFold (needle : Bytes) : Bytes → Nat
  | [] => 0
  | c :: rest =>
      if Bytes.startsWith (Bytes.lowerAscii ((c :: rest).take needle.length)) needle then 0
      else indexFold needle rest + 1

@[grind =] def consText (offset : Nat) (piece : Bytes) : List Token → List Token
  | .text _ more :: rest => .text offset (piece ++ more) :: rest
  | rest => if piece.isEmpty then rest else .text offset piece :: rest

def commentLength (s : Bytes) : Nat :=
  match Bytes.indexOf? (s.drop 4) "-->" with
  | some i => i + 7
  | none => s.length

def isRawElement (name : Bytes) : Bool :=
  name == Bytes.ofString "script" || name == Bytes.ofString "style"

mutual

@[grind =] def lexFrom (raw : Option RawText) (offset : Nat) : Bytes → List Token
  | [] => []
  | c :: rest =>
      let s := c :: rest
      match raw with
      | some r =>
          if r.start ≤ offset then
            let n := indexFold ("</" ++ r.name) s
            consText offset (s.take n) (lexFrom none (offset + n) (s.drop n))
          else lexMarkup raw offset c rest
      | none => lexMarkup raw offset c rest
  termination_by s => (s.length, if raw.isSome then 2 else 1)
  decreasing_by
    · simp only [List.length_drop, List.length_cons]
      by_cases hn : indexFold ("</" ++ r.name) (c :: rest) = 0
      · rw [hn]; simp [Prod.lex_def]
      · simp [Prod.lex_def]; omega
    · simp_all [Prod.lex_def]
    · simp_all [Prod.lex_def]

@[grind =]
def lexMarkup (raw : Option RawText) (offset : Nat) (c : UInt8) (rest : Bytes) : List Token :=
  let s := c :: rest
  if c == '\\'.toUInt8 && rest.head? == some '\x7b'.toUInt8 then
    consText offset "\x7b" (lexFrom raw (offset + 2) (rest.drop 1))
  else if c == '\x7b'.toUInt8 then
    match Scan.braces true s with
    | (n, true) =>
        .interpolation offset (some (rest.take (n - 1))) ::
          lexFrom raw (offset + n + 1) (rest.drop n)
    | (n, false) => .interpolation offset none :: lexFrom raw (offset + n + 1) (rest.drop n)
  else if Bytes.startsWith s "<!--" then
    let n := commentLength s
    consText offset (s.take n) (lexFrom raw (offset + n) (rest.drop (n - 1)))
  else if Bytes.startsWith s "</" then
    let name := Name.leading (rest.drop 1)
    if Name.isActive name then
      let after := (rest.drop 1).drop name.length
      let gap := (after.takeWhile Name.isSpace).length
      let closed := (after.drop gap).head? == some '>'.toUInt8
      let n := 2 + name.length + gap + (if closed then 1 else Scan.tagEnd (after.drop gap))
      .closing offset name (!closed) :: lexFrom raw (offset + n) (rest.drop (n - 1))
    else consText offset "<" (lexFrom raw (offset + 1) rest)
  else if c == '<'.toUInt8 then
    let name := Name.leading rest
    let n := 1 + name.length
    if Name.isActive name then
      let tail := lexAttrs (offset + n) (s.drop n)
      .opening offset name tail.attrs tail.problem tail.selfClosing ::
        lexFrom raw (offset + n + tail.length) (rest.drop (n + tail.length - 1))
    else
      let lower := Bytes.lowerAscii name
      let raw := if isRawElement lower then
          some ⟨lower, offset + n + Scan.tagEnd (s.drop n)⟩
        else raw
      consText offset (s.take n) (lexFrom raw (offset + n) (rest.drop (n - 1)))
  else consText offset [c] (lexFrom raw (offset + 1) rest)
  termination_by (rest.length + 1, 0)
  decreasing_by
    all_goals simp only [List.length_drop, Prod.lex_def]; omega

end

def lex (source : Bytes) : List Token := lexFrom none 0 source

end TagLoom.Template

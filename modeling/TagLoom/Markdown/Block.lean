import TagLoom.Markdown.Markup

/-!
# Blocks

A document is read line by line.  The blocks that are open form a spine, from the outermost on;
a line goes through them as long as they take it, and where one does not, new blocks are opened
and those below are closed.  A line that opens nothing may still go on with the paragraph at the end
of the spine.
-/

namespace TagLoom.Markdown

inductive Block where
  | paragraph (lines : List TextLine)
  /-- Text without an element of its own. -/
  | text (lines : List TextLine)
  | heading (level : Nat) (lines : List TextLine)
  | rule
  | code (language : Option Bytes) (lines : List Bytes)
  | quote (blocks : List Block)
  /-- A list, numbered from a start when there is one. -/
  | list (start : Option Nat) (items : List Block)
  | item (blocks : List Block)
  /-- Markup that is left out; whether it ends on a line of its own. -/
  | markup (closed : Bool)
deriving Inhabited

inductive MarkupEnd where
  /-- A line with one of some texts, in any case when `anyCase` is set. -/
  | text (texts : List Bytes) (anyCase : Bool)
  | blankLine
deriving DecidableEq

structure Fence where
  mark : UInt8
  count : Nat
  indent : Nat
  language : Option Bytes
deriving DecidableEq

/-- The kinds of open blocks; lines come last first. -/
inductive OpenKind where
  | paragraph (lines : List TextLine)
  | heading (level : Nat) (lines : List TextLine)
  | rule
  | code (lines : List Bytes)
  | fence (f : Fence) (lines : List Bytes)
  /-- Markup with its first line when that is its only one. -/
  | markup (stop : MarkupEnd) (onlyLine : Option Bytes) (closed : Bool)
  | quote
  | list (mark : UInt8) (start : Option Nat)
  /-- An item with the column where its blocks start. -/
  | item (offset : Nat)
deriving Inhabited

/-- A closed child of an open block; `loose` for an item with blank lines between its blocks. -/
structure Child where
  block : Block
  blankBefore : Bool
  loose : Bool
deriving Inhabited

structure OpenBlock where
  kind : OpenKind
  blankBefore : Bool
  children : List Child
deriving Inhabited

namespace OpenBlock

def isParagraph (b : OpenBlock) : Bool :=
  match b.kind with
  | .paragraph _ => true
  | _ => false

def isList (b : OpenBlock) : Bool :=
  match b.kind with
  | .list _ _ => true
  | _ => false

end OpenBlock

structure Reading where
  /-- The open blocks, the innermost one first. -/
  spine : List OpenBlock
  /-- The closed blocks of the document, the last one first. -/
  done : List Child
  definitions : Definitions
  /-- Whether the next line starts an item of an open list. -/
  itemAhead : Bool
  /-- Whether blank lines follow an empty item. -/
  emptyItem : Bool
deriving Inhabited

/-! ## Closing -/

def dropBlankEnd (lines : List Bytes) : List Bytes := lines.dropWhile isBlankLine

/-- The blocks of a tight item, in which paragraphs are plain text. -/
def tightened (b : Block) : Block :=
  match b with
  | .item blocks => .item (blocks.map fun
      | .paragraph lines => .text lines
      | other => other)
  | other => other

/-- Whether blank lines stand between some blocks, which come last first. -/
def hasGap (children : List Child) : Bool := children.dropLast.any (·.blankBefore)

/-- The list of items that come last first.  It is tight when no blank line stands between two of
them or between the blocks of one. -/
def listOf (start : Option Nat) (items : List Child) : Block :=
  let loose := hasGap items || items.any (·.loose)
  let blocks := items.reverse.map (·.block)
  .list start (if loose then blocks else blocks.map tightened)

def OpenBlock.close (b : OpenBlock) (defs : Definitions) : Child × Definitions :=
  let child (block : Block) : Child := ⟨block, b.blankBefore, false⟩
  match b.kind with
  | .paragraph lines =>
      match takeDefinitions defs lines.reverse with
      | (defs, []) => (child (.text []), defs)
      | (defs, rest) => (child (.paragraph (TextLine.trimLast rest)), defs)
  | .heading level lines => (child (.heading level lines), defs)
  | .rule => (child .rule, defs)
  | .code lines => (child (.code none (dropBlankEnd lines).reverse), defs)
  | .fence f lines => (child (.code f.language lines.reverse), defs)
  | .markup _ _ closed => (child (.markup closed), defs)
  | .quote => (child (.quote (b.children.reverse.map (·.block))), defs)
  | .list _ start => (child (listOf start b.children), defs)
  | .item _ =>
      (⟨.item (b.children.reverse.map (·.block)), b.blankBefore, hasGap b.children⟩, defs)

namespace Reading

def depth (r : Reading) : Nat := r.spine.length

def addChild (r : Reading) (c : Child) : Reading :=
  match r.spine with
  | [] => { r with done := c :: r.done }
  | b :: outer => { r with spine := { b with children := c :: b.children } :: outer }

def closeInnermost (r : Reading) : Reading :=
  match r.spine with
  | [] => r
  | b :: outer =>
      let (child, definitions) := b.close r.definitions
      ({ r with spine := outer, definitions } : Reading).addChild child

def close (r : Reading) (depth : Nat) : Reading := Nat.repeat closeInnermost (r.depth - depth) r

def push (r : Reading) (kind : OpenKind) (blankBefore : Bool) : Reading :=
  { r with spine := ⟨kind, blankBefore, []⟩ :: r.spine }

def openAt? (r : Reading) (i : Nat) : Option OpenBlock := r.spine.reverse[i]?

def setAt (r : Reading) (i : Nat) (b : OpenBlock) : Reading :=
  { r with spine := (r.spine.reverse.set i b).reverse }

def isEmptyAt (r : Reading) (i : Nat) : Bool :=
  r.depth ≤ i + 1 && ((r.openAt? i).map (·.children.isEmpty)).getD true

def itemOffset (r : Reading) (list : Nat) : Nat :=
  match r.openAt? (list + 1) with
  | some ⟨.item offset, _, _⟩ => offset
  | _ => 0

end Reading

/-! ## Forms of lines -/

def isRule (column : Nat) (s : Bytes) : Bool :=
  let marks := s.filter fun c => !isBlank c
  indentColumns column s ≤ 3 && marks.length ≥ 3 &&
    (match marks with
    | c :: _ => (c == 45 || c == 42 || c == 95) && marks.all (· == c)
    | [] => false)

def underline? (s : Bytes) : Option Nat :=
  let t := trimRight (s.dropWhile (· == 32))
  if runLength 32 s > 3 || t.isEmpty then none
  else if t.all (· == 61) then some 1
  else if t.all (· == 45) then some 2
  else none

def heading? (s : Bytes) : Option (Nat × Bytes) :=
  let level := runLength 35 s
  let rest := s.drop level
  if level == 0 || level > 6 || !(rest.isEmpty || (rest.head?.map isBlank).getD false) then none
  else
    let text := trimRight (trimLeft rest)
    let bare := Bytes.trimRightWhere (· == 35) text
    if bare.isEmpty then some (level, [])
    else if bare.length < text.length && (bare.getLast?.map isBlank).getD false then some (level, bare)
    else some (level, text)

def fence? (indent : Nat) (s : Bytes) : Option Fence :=
  match s with
  | c :: _ =>
      let n := runLength c s
      let info := trimRight (trimLeft (s.drop n))
      if (c == 96 || c == 126) && n ≥ 3 && !(c == 96 && info.contains 96) then
        some ⟨c, n, indent, if info.isEmpty then none else some (info.takeWhile (· != 32))⟩
      else none
  | [] => none

structure Marker where
  indent : Nat
  /-- The last byte of the mark. -/
  mark : UInt8
  number : Option Nat
  /-- The bytes up to the end of the mark, the indentation included. -/
  width : Nat
  /-- What follows the mark. -/
  rest : Bytes

def marker? (s : Bytes) : Option Marker :=
  let indent := runLength 32 s
  let t := s.drop indent
  let digits := t.takeWhile Bytes.isDigit
  let follows (rest : Bytes) : Bool := rest.head?.all fun c => c == 10 || c == 32 || c == 9
  if indent > 3 then none
  else match t, t.drop digits.length with
    | c :: rest, d :: after =>
        if c == 45 || c == 42 || c == 43 then
          if follows rest then some ⟨indent, c, none, indent + 1, rest⟩ else none
        else if digits.isEmpty || digits.length > 9 || !(d == 46 || d == 41) || !follows after then none
        else (Decimal.readNat? 10 digits).map fun n =>
          ⟨indent, d, some n, indent + digits.length + 1, after⟩
    | _, _ => none

namespace Marker

def isBlank (m : Marker) : Bool := isBlankLine m.rest

/-- The columns between the mark and the blocks of the item: one when code or nothing follows. -/
def gap (m : Marker) : Nat :=
  let n := indentColumns m.width m.rest
  if m.isBlank || n > 4 then 1 else n

end Marker

/-! ## Markup -/

def blockElements : List Bytes := ([
  "address", "article", "aside", "base", "basefont", "blockquote", "body", "caption", "center", "col",
  "colgroup", "dd", "details", "dialog", "dir", "div", "dl", "dt", "fieldset", "figcaption",
  "figure", "footer", "form", "frame", "frameset", "h1", "h2", "h3", "h4", "h5", "h6", "head",
  "header", "hr", "html", "iframe", "legend", "li", "link", "main", "menu", "menuitem", "meta", "nav",
  "noframes", "ol", "optgroup", "option", "p", "param", "section", "source", "summary", "table",
  "tbody", "td", "tfoot", "th", "thead", "title", "tr", "track", "ul"] : List String).map
    Bytes.ofString

def withoutLineEnd (s : Bytes) : Bytes :=
  let t := withoutNewline s
  if t.length < s.length && t.getLast? == some 13 then t.dropLast else t

def plainEnds : MarkupEnd := .text ["</script>", "</pre>", "</style>", "</textarea>"] true

/-- Whether a line, after its angle bracket, starts an element whose content is no markup. -/
def startsPlain (s : Bytes) : Bool :=
  (["script", "pre", "style", "textarea"] : List Bytes).any fun name =>
    Bytes.startsWith (Bytes.lowerAscii s) name &&
      (match s.drop name.length with
      | [] => true
      | 47 :: 62 :: _ => true
      | c :: _ => isTagBlank c || c == 62)

/-- Whether a line, after its angle bracket, is one tag and nothing more: its name, and whether it
is a closing tag with attributes. -/
def loneTag? (s : Bytes) : Option (Bytes × Bool) := do
  let slash := s.head? == some 47
  let inner := if slash then (s.drop 1).dropWhile (· == 32) else s
  let (name, rest) ← tagName? inner
  let after := afterAttributes rest.length rest
  let closed ← match after.dropWhile (· == 32) with
    | 62 :: t => some t
    | 47 :: 62 :: t => some t
    | _ => none
  if (withoutLineEnd closed).all (· == 32) then
    some (Bytes.lowerAscii name, (s.take 2 != [47, 32] && slash) && after.length < rest.length)
  else none

def startsBlockTag (s : Bytes) : Bool :=
  let inner := if s.head? == some 47 then (s.drop 1).dropWhile (· == 32) else s
  match tagName? inner with
  | none => false
  | some (name, rest) =>
      blockElements.contains (Bytes.lowerAscii name) &&
        (match withoutLineEnd rest with
        | [] => true
        | 47 :: 62 :: _ => true
        | c :: _ => c == 32 || c == 62)

/-- What ends the block of markup that a line starts.  A line that is one tag of another element
starts a block only when it does not go on with a paragraph. -/
def markupStart? (inParagraph : Bool) (line : Bytes) : Option MarkupEnd :=
  match line.drop (runLength 32 line) with
  | 60 :: s =>
      let tagged : Option MarkupEnd :=
        match loneTag? s with
        | some (name, odd) =>
            if blockElements.contains name then some .blankLine
            else if !(["script", "style", "pre"] : List Bytes).contains name && !inParagraph && !odd then
              some .blankLine
            else none
        | none => none
      if startsPlain s then some plainEnds
      else if Bytes.startsWith s "!--" then some (.text ["-->"] false)
      else if Bytes.startsWith s "?" then some (.text ["?>"] false)
      else if s.head? == some 33 && (s.drop 1).head?.any Bytes.isUpper then some (.text [">"] false)
      else if Bytes.startsWith s "![CDATA[" then some (.text ["]]>"] false)
      else if tagged.isSome then tagged
      else if startsBlockTag s then some .blankLine
      else none
  | _ => none

def MarkupEnd.matches (stop : MarkupEnd) (line : Bytes) : Bool :=
  match stop with
  | .text texts anyCase =>
      texts.any (Bytes.includes (if anyCase then Bytes.lowerAscii line else line))
  | .blankLine => isBlankLine line

/-! ## Going on with blocks -/

/-- What an open block does with a line: it does not take it, or it does, and blocks inside it may
take what is left. -/
inductive Continuation where
  | ends (line : Line)
  | goesOn (block : OpenBlock) (line : Line) (holdsBlocks : Bool)

def blankCode : Nat → Bytes → Bytes
  | 0, s => s
  | _, [] => []
  | width + 1, c :: rest =>
      if rest.isEmpty then [c]
      else if c == 32 then blankCode width rest
      else if c == 9 then
        if width + 1 < 4 then Bytes.fill (3 - width) 32 ++ rest else blankCode (width - 3) rest
      else c :: rest
termination_by _ s => s.length

def quoted? (l : Line) : Option Line :=
  let n := indentLength l.rest
  match l.rest.drop n with
  | 62 :: after =>
      if l.indent > 3 then none
      else match after with
        | 32 :: _ => some (l.advance (n + 2))
        | 9 :: _ => some ((l.advance (n + 2)).pad 2)
        | _ => some (l.advance (n + 1))
  | _ => none

def fencedLine (f : Fence) (l : Line) : Bytes :=
  match l.takeIndent? f.indent with
  | some l' => l'.rest
  | none => if (l.rest.drop (indentLength l.rest)).head?.all (· == 10) then l.rest
      else l.rest.drop (indentLength l.rest)

def closesFence (f : Fence) (l : Line) : Bool :=
  let t := l.rest.drop (indentLength l.rest)
  let n := runLength f.mark t
  l.indent < 4 && n ≥ f.count && isBlankLine (t.drop n)

/-- What a list does with a line that is not blank: `some true` when it goes on, `some false` when it
ends. -/
def listGoesOn (r : Reading) (i : Nat) (mark : UInt8) (numbered : Bool) (l : Line) : Bool :=
  let offset := r.itemOffset i
  let lastIsEmpty := r.isEmptyAt (i + 1)
  let indent := l.indent
  let next : Option Bool :=
    if (indent < offset || lastIsEmpty) && indent < 4 then
      (marker? l.rest).map fun m =>
        m.mark == mark && m.number.isSome == numbered && !isRule 0 (l.rest.drop (m.width - 1))
    else none
  match next with
  | some goesOn => goesOn
  | none => !(indent < offset) && !r.emptyItem

def continueBlock (r : Reading) (i : Nat) (b : OpenBlock) (l : Line) : Continuation × Reading :=
  let stop : Continuation × Reading := (.ends l, r)
  match b.kind with
  | .paragraph _ | .heading _ _ | .rule => stop
  | .code lines =>
      if l.isBlank then
        (.goesOn { b with kind := .code (blankCode 4 l.rest :: lines) } l.finish false, r)
      else match l.takeIndent? 4 with
        | some l' => (.goesOn { b with kind := .code (l'.rest :: lines) } l'.finish false, r)
        | none => stop
  | .fence f lines =>
      if closesFence f l then (.ends l.finish, r)
      else (.goesOn { b with kind := .fence f (fencedLine f l :: lines) } l.finish false, r)
  | .markup ending first _ =>
      match ending with
      | .blankLine => if l.isBlank then stop else (.goesOn b l.finish false, r)
      | .text _ _ =>
          if first.any ending.matches then stop
          else if ending.matches l.rest then
            (.ends l.finish, r.setAt i { b with kind := .markup ending none true })
          else (.goesOn { b with kind := .markup ending none false } l.finish false, r)
  | .quote =>
      match quoted? l with
      | some l' => (.goesOn b l' true, r)
      | none => stop
  | .list mark start =>
      if l.isBlank then
        (.goesOn b l true, if r.isEmptyAt (i + 1) then { r with emptyItem := true } else r)
      else if listGoesOn r i mark start.isSome l then (.goesOn b l true, r)
      else stop
  | .item offset =>
      if l.isBlank then (.goesOn b l.finish true, r)
      else
        let isEmpty := r.isEmptyAt i
        if (isEmpty || l.indent < offset) && l.indent < 4 && (marker? l.rest).isSome then
          (.ends l, { r with itemAhead := true })
        else if l.indent < offset then stop
        else (.goesOn b ((l.takeIndent? offset).getD l) true, r)

/-! ## Opening blocks -/

/-- What may be opened at a line: a block, what is left of the line, and whether blocks may be opened
inside it. -/
structure Opening where
  kind : OpenKind
  line : Line
  holdsBlocks : Bool

/-- The list that a line starts.  In a paragraph of the same parent it has to start with one, and
not with an empty item. -/
def openList? (afterParagraph : Bool) (l : Line) : Option Opening := do
  let m ← marker? l.rest
  if afterParagraph && (m.number.any (· != 1) || m.isBlank) then none
  else some ⟨.list m.mark m.number, l, true⟩

def openItem? (l : Line) : Option Opening := do
  let m ← marker? l.rest
  let kind := OpenKind.item (m.width + m.gap)
  if m.isBlank then some ⟨kind, l.finish, false⟩
  else
    let (n, left) ← takeIndent m.width m.gap m.rest
    some ⟨kind, (l.advance (m.width + n)).pad left, true⟩

/-- The block that a line starts by its first byte, lists apart. -/
def openMarked? (inParagraph : Bool) (l : Line) : Option Opening :=
  let n := indentLength l.rest
  let s := l.rest.drop n
  match s with
  | 35 :: _ => (heading? s).map fun (level, text) =>
      ⟨.heading level (if text.isEmpty then [] else [⟨[], text⟩]), l.finish, false⟩
  | 96 :: _ | 126 :: _ => (fence? n s).map fun f => ⟨.fence f [], l.finish, false⟩
  | 62 :: _ => (quoted? l).map fun l' => ⟨.quote, l', true⟩
  | 60 :: _ => (markupStart? inParagraph l.rest).map fun ending =>
      ⟨.markup ending (some l.rest) false, l.finish, false⟩
  | _ => none

def openPlain? (l : Line) : Option Opening :=
  match if l.isBlank then none else l.takeIndent? 4 with
  | some l' => some ⟨.code [l'.rest], l'.finish, false⟩
  | none => (TextLine.ofLine? l).map fun t => ⟨.paragraph [t], l.finish, false⟩

inductive Attempt where
  | opened (o : Opening)
  /-- The paragraph at the end of the spine is a heading. -/
  | underlined (level : Nat)
  | nothing

/-- The block that a line opens in the parent at a depth.  `inParagraph` when the line might go on
with a paragraph instead. -/
def attempt (r : Reading) (depth : Nat) (inParagraph : Bool) (l : Line) : Attempt × Reading :=
  let last := r.spine.head?
  let isDirect := r.depth == depth + 1
  let afterParagraph := isDirect && last.any (·.isParagraph)
  let shallow := l.indent ≤ 3
  let c := (l.rest.drop (indentLength l.rest)).headD 10
  let isMark := ([45, 43, 42] : List UInt8).contains c || Bytes.isDigit c
  let inList := depth > 0 && ((r.openAt? (depth - 1)).map (·.isList)).getD false
  let underline := if shallow && afterParagraph && (c == 45 || c == 61) then underline? l.rest else none
  match underline with
  | some level => (.underlined level, r)
  | none =>
      if shallow && isRule l.column l.rest then (.opened ⟨.rule, l.finish, false⟩, r)
      else
        let skips := last.any (·.isList) || r.itemAhead
        let r' := if isMark && shallow then
            (if skips then { r with itemAhead := false } else r)
          else r
        let found : Option Opening :=
          (if isMark && shallow && !skips then openList? afterParagraph l else none) <|>
          (if isMark && inList then openItem? l else none) <|>
          (if shallow then openMarked? (last.any (·.isParagraph)) l else none) <|>
          (if inParagraph then none else openPlain? l)
        match found with
        | some o =>
            (.opened o, match o.kind with
              | .list _ _ | .item _ => { r' with emptyItem := false }
              | _ => r')
        | none => (.nothing, r')

def continueParagraph? (r : Reading) (l : Line) : Option Reading :=
  match r.spine with
  | b :: outer =>
      match b.kind, TextLine.ofLine? l with
      | .paragraph lines, some t =>
          some { r with spine := { b with kind := .paragraph (t :: lines) } :: outer }
      | _, _ => none
  | [] => none

/-- Opens the blocks that a line starts in the parent at a depth; the open blocks below the parent
are closed unless the line goes on with the paragraph among them.  The count bounds the number of
blocks. -/
def openBlocks : Nat → Reading → Nat → Bool → Bool → Line → Reading
  | 0, r, depth, _, _, _ => r.close depth
  | fuel + 1, r, depth, blank, fresh, l =>
      let inParagraph := !fresh && (r.spine.head?.map (·.isParagraph)).getD false
      let leave (r : Reading) : Reading :=
        match if inParagraph then continueParagraph? r l else none with
        | some r' => r'
        | none => r.close depth
      if l.rest.head?.all (· == 10) then leave r
      else match attempt r depth inParagraph l with
        | (.nothing, r) => leave r
        | (.opened o, r) =>
            let r := (r.close depth).push o.kind blank
            if o.holdsBlocks then openBlocks fuel r (depth + 1) blank true o.line else r
        | (.underlined level, r) =>
            match r.spine with
            | b :: outer =>
                match b.close r.definitions with
                | (⟨.paragraph lines, before, _⟩, definitions) =>
                    { r with
                      definitions
                      spine := ⟨.heading level lines, before, []⟩ :: outer }
                | (child, definitions) =>
                    let r := ({ r with spine := outer, definitions } : Reading).addChild child
                    openBlocks fuel r depth blank fresh l
            | [] => r

/-! ## Reading lines -/

/-- Which lines were blank for the open blocks: the number of the line, the depth of the block, and
whether it was. -/
structure BlankNote where
  line : Nat
  depth : Nat
  blank : Bool
deriving DecidableEq

def wasBlankIn (line depth : Nat) : List BlankNote → Bool
  | [] => false
  | n :: notes =>
      if n.line == line && n.depth < depth && n.blank then true
      else if n.line == line && n.depth == depth then n.blank
      else if n.line < line then false
      else wasBlankIn line depth notes

def wasBlank (line depth : Nat) (notes : List BlankNote) : Bool :=
  match notes.drop depth with
  | [] => true
  | rest => wasBlankIn line depth rest

/-- The state between lines: the reading, the notes on blank lines, and whether blank lines have
passed with no block open. -/
structure Progress where
  reading : Reading
  notes : List BlankNote
  passedBlank : Bool

def throughBlocks (number : Nat) : List OpenBlock → Nat → Progress → Line → Progress
  | [], _, p, _ => p
  | _ :: below, i, p, l =>
      if l.rest.isEmpty then { p with reading := p.reading.close 0 }
      else match p.reading.openAt? i with
        | none => p
        | some b =>
            let notes := ⟨number, i, l.isBlank⟩ :: p.notes
            let blank := wasBlank (number - 1) i notes
            let fuel := l.rest.length + 2
            match continueBlock p.reading i b l with
            | (.goesOn b' l' holdsBlocks, r) =>
                let r := r.setAt i b'
                if below.isEmpty then
                  if holdsBlocks then { p with reading := openBlocks fuel r (i + 1) blank false l', notes }
                  else { p with reading := r, notes }
                else throughBlocks number below (i + 1) { p with reading := r, notes } l'
            | (.ends l', r) => { p with reading := openBlocks fuel r i blank false l', notes }

def readLine (p : Progress) (number : Nat) (source : Bytes) : Progress :=
  let l := Line.ofSource source
  if p.reading.spine.isEmpty then
    if l.isBlank then { p with passedBlank := true }
    else
      let notes := if p.passedBlank then [] else p.notes
      let blank := wasBlank (number - 1) 0 notes
      ⟨openBlocks (source.length + 2) p.reading 0 blank false l, notes, false⟩
  else throughBlocks number p.reading.spine 0 p l

def parseBlocks (source : Bytes) : List Block × Definitions :=
  let start : Progress := ⟨⟨[], [], [], false, false⟩, [], false⟩
  let lines := (sourceLines source).zipIdx 1
  let r := (lines.foldl (fun p (line, number) => readLine p number line) start).reading.close 0
  (r.done.reverse.map (·.block), r.definitions)

end TagLoom.Markdown

import TagLoom.Template.Node
import TagLoom.Diagnostic
import TagLoom.Template.Token

/-!
# Reading templates

The tokens of a source are folded into the tree of a template.  The elements that are open at
a place form a stack, innermost first; a closing tag, the end of the source or the limit on
faults closes elements, and closing an element hands what it became to the element around
it.  Reading never fails: after a fault it goes on, and the tree is then only fit for finding
more faults.
-/

namespace TagLoom.Template

/-!
## Faults in template sources

The causes for which a source is rejected, and their wording.
-/

inductive Fault where
  | tooMany
  | unclosed (element : Bytes)
  | malformedClosing (element : Bytes)
  | unexpectedClosing (element : Bytes)
  | openInterpolation
  | emptyInterpolation
  | badInterpolation (source : Bytes) (e : Expr.ParseError)
  | unterminatedTag (element : Bytes)
  | malformedAttr (element : Bytes)
  | unquotedValue (attr : Bytes)
  | openValue (attr : Bytes)
  | unknownAttr (element attr : Bytes)
  | repeatedAttr (element attr : Bytes)
  | missingAttr (element attr : Bytes)
  | unquotedName (element attr : Bytes)
  | badName (element attr value : Bytes)
  | missingExpr (element attr : Bytes)
  | badExpr (element attr source : Bytes) (e : Expr.ParseError)
  | badArgument (arg source : Bytes) (e : Expr.ParseError)
  | nestedDefinition
  | badParamType (value : Bytes)
  | fullParam
  | strayParam
  | lateParam
  | repeatedParam (name : Bytes) (first : Pos)
  | straySlot
  | strayElse
  | secondElse
  | afterElse
  | sameLoopNames

def Fault.message : Fault → Bytes
  | .tooMany => "too many errors, giving up on this file"
  | .unclosed element => "unclosed <" ++ element ++ ">"
  | .malformedClosing element => "malformed closing tag </" ++ element ++ ">"
  | .unexpectedClosing element => "unexpected closing tag </" ++ element ++ ">"
  | .openInterpolation => "unterminated interpolation: '\x7b' is not closed on the same line"
  | .emptyInterpolation => "empty interpolation"
  | .badInterpolation source e =>
      "invalid expression \x7b" ++ Unicode.trim source ++ "\x7d: " ++ e.message
  | .unterminatedTag element => "unterminated <" ++ element ++ "> tag"
  | .malformedAttr element => "malformed attribute in <" ++ element ++ ">"
  | .unquotedValue attr => "attribute " ++ attr ++ ": value must be quoted or an \x7bexpression\x7d"
  | .openValue attr => "attribute " ++ attr ++ ": unterminated value"
  | .unknownAttr element attr =>
      "unknown attribute " ++ Bytes.quote attr ++ " on <" ++ element ++ ">"
  | .repeatedAttr element attr =>
      "attribute " ++ Bytes.quote attr ++ " repeated on <" ++ element ++ ">"
  | .missingAttr element attr => "<" ++ element ++ "> requires a " ++ attr ++ " attribute"
  | .unquotedName element attr => "<" ++ element ++ "> " ++ attr ++ " must be a quoted string"
  | .badName element attr value =>
      "<" ++ element ++ "> " ++ attr ++ " " ++ Bytes.quote value ++ " is not a valid name"
  | .missingExpr element attr => "<" ++ element ++ "> " ++ attr ++ " needs an expression"
  | .badExpr element attr source e =>
      "<" ++ element ++ "> " ++ attr ++ ": invalid expression " ++
        Bytes.quote (Unicode.trim source) ++ ": " ++ e.message
  | .badArgument arg source e =>
      "argument " ++ arg ++ ": invalid expression " ++ Bytes.quote (Unicode.trim source) ++ ": " ++
        e.message
  | .nestedDefinition => "<t:def> is only allowed at the top level of a template"
  | .badParamType value =>
      "unknown parameter type " ++ Bytes.quote value ++ " (want text, content or value)"
  | .fullParam => "<t:param> must be empty"
  | .strayParam => "<t:param> is only allowed at the start of a tag body"
  | .lateParam => "<t:param> must precede other content in the tag body"
  | .repeatedParam name first =>
      "parameter " ++ Bytes.quote name ++ " declared twice (first at " ++ first.toBytes ++ ")"
  | .straySlot => "<t:slot> must be a direct child of a tag invocation"
  | .strayElse => "<t:else> must be a direct child of <t:if>"
  | .secondElse => "<t:if> has more than one <t:else>"
  | .afterElse => "content after <t:else> must be inside it"
  | .sameLoopNames => "<t:for> index and as must differ"

/-! ## Bodies and elements -/

/-- Faults after which a source is given up; the last of them says so. -/
def maxFaults : Nat := 25

/-- The nodes of a sequence being read.  A tag body may start with parameter declarations;
while that header is open, blanks are held back. -/
structure Body where
  allowParams : Bool
  headerOpen : Bool
  decls : List Declaration
  nodes : List Node

namespace Body

def empty (allowParams : Bool) : Body := ⟨allowParams, allowParams, [], []⟩

def skipBlanks (pos : Pos) (blanks : Bytes) : Pos :=
  blanks.foldl (fun p c =>
    if c == '\n'.toUInt8 then ⟨p.line + 1, 1⟩ else ⟨p.line, p.column + 1⟩) pos

def trimLeading : Node → Node
  | .literal pos s =>
      .literal (skipBlanks pos (s.takeWhile Name.isSpace)) (s.dropWhile Name.isSpace)
  | n => n

/-- Appends a node.  The first node that is not blank closes the header and, after
declarations, drops the blanks before it. -/
def add (b : Body) (n : Node) : Body :=
  if b.headerOpen then
    if n.isBlankLiteral then { b with nodes := b.nodes ++ [n] }
    else if b.decls.isEmpty then { b with headerOpen := false, nodes := b.nodes ++ [n] }
    else { b with headerOpen := false, nodes := [trimLeading n] }
  else { b with nodes := b.nodes ++ [n] }

/-- Appends a declaration, or says why it may not stand here. -/
def addDecl (b : Body) (d : Declaration) : Except Fault Body :=
  if !b.allowParams then .error .strayParam
  else if !b.headerOpen then .error .lateParam
  else match b.decls.find? (·.name == d.name) with
    | some first => .error (.repeatedParam d.name first.pos)
    | none => .ok { b with decls := b.decls ++ [d], nodes := [] }

end Body

/-- What an open element will become once it is closed; `none` where it was rejected
already. -/
inductive Opened where
  | definition (name : Option Bytes)
  | param (decl : Option Declaration)
  | slot (name : Option Bytes)
  | cond (test : Option Expression) (otherwise : Option (List Node × Nat))
  | otherwise
  | loop (head : Option (Expression × Bytes × Bytes))
  | invocation (attrArgs slots : List Arg)

structure Frame where
  kind : Opened
  name : Bytes
  pos : Pos
  body : Body

/-- The state of reading: open elements innermost first, the root body, finished named
tags, and faults, latest first. -/
structure Builder where
  source : Bytes
  file : Bytes
  frames : List Frame
  root : Body
  defs : List Definition
  faults : List (Pos × Fault)
  aborted : Bool

abbrev Build := StateM Builder

namespace Build

def posOf (offset : Nat) : Build Pos := return Pos.ofOffset (← get).source offset

/-- Notes a fault.  The last one allowed is replaced by a notice and ends the reading. -/
def fault (pos : Pos) (f : Fault) : Build Unit :=
  modify fun st =>
    if st.aborted then st
    else if maxFaults ≤ st.faults.length + 1 then
      { st with faults := (pos, .tooMany) :: st.faults, aborted := true }
    else { st with faults := (pos, f) :: st.faults }

def modifyBody (f : Body → Body) : Build Unit :=
  modify fun st =>
    match st.frames with
    | [] => { st with root := f st.root }
    | frame :: frames => { st with frames := { frame with body := f frame.body } :: frames }

def currentBody : Build Body := do
  let st ← get
  return (st.frames.head?.map (·.body)).getD st.root

def addNode (n : Node) : Build Unit := modifyBody (·.add n)

def addDecl (d : Declaration) : Build Unit := do
  match (← currentBody).addDecl d with
  | .ok b => modifyBody fun _ => b
  | .error f => fault d.pos f

end Build

open Build

/-! ## Attributes of built-in elements -/

/-- The accepted attributes of a built-in element; unknown and repeated ones are faults. -/
def knownAttrs (element : Bytes) (allowed : List Bytes) (attrs : List Attr) : Build (List Attr) :=
  attrs.foldlM (fun kept a => do
    if !allowed.contains a.name then
      fault (← posOf a.offset) (.unknownAttr element a.name)
      return kept
    else if kept.any (·.name == a.name) then
      fault (← posOf a.offset) (.repeatedAttr element a.name)
      return kept
    else return kept ++ [a]) []

def findAttr (attrs : List Attr) (name : Bytes) : Option Attr := attrs.find? (·.name == name)

/-- The static value of a naming attribute: `some none` when an optional one is absent,
`none` after a fault. -/
def nameAttr (element : Bytes) (pos : Pos) (attrs : List Attr) (key : Bytes) (required : Bool)
    (valid : Bytes → Bool) : Build (Option (Option Bytes)) := do
  match findAttr attrs key with
  | none =>
      if required then
        fault pos (.missingAttr element key)
        return none
      else return some none
  | some a =>
      match a.value with
      | .quoted _ value =>
          if valid value then return some (some value)
          else
            fault (← posOf a.offset) (.badName element key value)
            return none
      | _ =>
          fault (← posOf a.offset) (.unquotedName element key)
          return none

/-- The expression of a control attribute, quoted or in braces. -/
def exprAttr (element : Bytes) (pos : Pos) (attrs : List Attr) (key : Bytes) (required : Bool) :
    Build (Option Expression) := do
  match findAttr attrs key with
  | none =>
      if required then fault pos (.missingAttr element key)
      return none
  | some a =>
      let value? := match a.value with
        | .bare => none
        | .quoted _ v | .braced v => if Name.isBlank v then none else some v
      match value? with
      | none =>
          fault (← posOf a.offset) (.missingExpr element key)
          return none
      | some v =>
          match Expression.parse v with
          | .ok e => return some e
          | .error err =>
              fault (← posOf a.offset) (.badExpr element key v err)
              return none

/-! ## Quoted arguments -/

inductive Piece where
  | literal (offset : Nat) (text : Bytes)
  | interpolation (offset : Nat) (source : Bytes)
deriving DecidableEq

def consLiteral (offset : Nat) (text : Bytes) : List Piece → List Piece
  | .literal _ more :: rest => .literal offset (text ++ more) :: rest
  | rest => .literal offset text :: rest

def splitText (offset : Nat) : Bytes → List Piece
  | [] => []
  | c :: rest =>
      if c == '\\'.toUInt8 && rest.head? == some '\x7b'.toUInt8 then
        consLiteral offset "\x7b" (splitText (offset + 2) (rest.drop 1))
      else if c == '\x7b'.toUInt8 then
        let n := (Scan.braces false (c :: rest)).1
        .interpolation offset (rest.take (n - 1)) :: splitText (offset + n + 1) (rest.drop n)
      else consLiteral offset [c] (splitText (offset + 1) rest)
  termination_by s => s.length
  decreasing_by
    all_goals simp only [List.length_drop, List.length_cons]; omega

def textParts (base : Nat) (value : Bytes) : Build (List Part) := do
  (splitText 0 value).foldlM (fun parts piece => do
    match piece with
    | .literal offset s => return parts ++ [.literal (← posOf (base + offset)) s]
    | .interpolation offset source =>
        let pos ← posOf (base + offset)
        if Name.isBlank source then
          fault pos .emptyInterpolation
          return parts
        else match Expression.parse source with
          | .ok e => return parts ++ [.interpolation pos e]
          | .error err =>
              fault pos (.badInterpolation source err)
              return parts) []

def attrArgs (attrs : List Attr) : Build (List Arg) :=
  attrs.foldlM (fun args a => do
    let pos ← posOf a.offset
    match a.value with
    | .bare => return args ++ [.expr pos a.name .yes]
    | .braced source =>
        match Expression.parse source with
        | .ok e => return args ++ [.expr pos a.name e]
        | .error err =>
            fault pos (.badArgument a.name source err)
            return args
    | .quoted base value => return args ++ [.text pos a.name (← textParts base value)]) []

/-! ## Closing elements -/

def checkAfterElse (nodes : List Node) : Build Unit :=
  match nodes.find? (!·.isBlankLiteral) with
  | some n => fault n.pos .afterElse
  | none => pure ()

/-- The arguments of an invocation that its content binds: its slots and, unless it is blank,
everything outside them, in source order. -/
def contentArgs (slots : List Arg) (nodes : List Node) : List Arg :=
  let implicit : List Arg :=
    match nodes with
    | n :: _ => if Node.allBlank nodes then [] else [.content n.pos Arg.implicitName nodes]
    | [] => []
  (slots ++ implicit).mergeSort fun a b => !b.pos.before a.pos

/-- Hands what a closed element became to the element around it, which is the innermost
open one now. -/
def deliver (frame : Frame) : Build Unit := do
  let nodes := frame.body.nodes
  match frame.kind with
  | .definition name =>
      match name with
      | some name =>
          modify fun st => { st with defs := st.defs ++
            [⟨name, false, frame.pos, frame.body.decls, nodes, st.file, []⟩] }
      | none => pure ()
  | .param decl =>
      if !Node.allBlank nodes then fault frame.pos .fullParam
      match decl with
      | some d => addDecl d
      | none => pure ()
  | .slot name =>
      match name with
      | some name =>
          modify fun st =>
            match st.frames with
            | f :: frames =>
                match f.kind with
                | .invocation args slots =>
                    { st with frames := { f with
                        kind := .invocation args (slots ++ [.content frame.pos name nodes]) }
                        :: frames }
                | _ => st
            | [] => st
      | none => pure ()
  | .cond test otherwise =>
      match otherwise with
      | some (_, n) => checkAfterElse (nodes.drop n)
      | none => pure ()
      match test with
      | some e => addNode (.cond frame.pos e nodes (otherwise.map (·.1)))
      | none => pure ()
  | .otherwise =>
      let st ← get
      match st.frames with
      | f :: frames =>
          match f.kind with
          | .cond test none =>
              set { st with frames :=
                { f with kind := .cond test (some (nodes, f.body.nodes.length)) } :: frames }
          | .cond _ (some _) => fault frame.pos .secondElse
          | _ => fault frame.pos .strayElse
      | [] => fault frame.pos .strayElse
  | .loop head =>
      match head with
      | some (each, item, index) => addNode (.loop frame.pos each item index nodes)
      | none => pure ()
  | .invocation args slots =>
      addNode (.invocation frame.pos frame.name (args ++ contentArgs slots nodes))

def closeTop : Build Unit := do
  let st ← get
  match st.frames with
  | [] => pure ()
  | frame :: frames =>
      set { st with frames := frames }
      deliver frame

/-- Answers a closing tag: elements inside the one it names are reported unclosed; a tag that
names no open element is reported itself.  A malformed tag is reported at every element it
passes.  The count bounds the elements it can pass. -/
def closeTag (pos : Pos) (name : Bytes) (malformed : Bool) : Nat → Build Unit
  | 0 => pure ()
  | fuel + 1 => do
      if malformed then fault pos (.malformedClosing name)
      match (← get).frames with
      | [] => fault pos (.unexpectedClosing name)
      | frame :: frames =>
          if frame.name == name then closeTop
          else if frames.any (·.name == name) then
            fault frame.pos (.unclosed frame.name)
            closeTop
            if !(← get).aborted then closeTag pos name malformed fuel
          else fault pos (.unexpectedClosing name)

def closeAll : Nat → Build Unit
  | 0 => pure ()
  | fuel + 1 => do
      match (← get).frames with
      | [] => pure ()
      | frame :: _ =>
          fault frame.pos (.unclosed frame.name)
          closeTop
          closeAll fuel

/-! ## Opening elements -/

def openElement (pos : Pos) (name : Bytes) (attrs : List Attr) : Build (Opened × Bool) := do
  let frames := (← get).frames
  if name == Bytes.ofString "t:def" then
    let attrs ← knownAttrs name ["name"] attrs
    let tag ← nameAttr name pos attrs "name" true Name.isTag
    if !frames.isEmpty then
      fault pos .nestedDefinition
      return (.definition none, true)
    return (.definition (tag.getD none), true)
  else if name == Bytes.ofString "t:param" then
    let attrs ← knownAttrs name ["name", "type", "default"] attrs
    let param ← nameAttr name pos attrs "name" true Name.isIdent
    let type : Option ParamType ←
      match findAttr attrs "type" with
      | none => pure (some .unknown)
      | some a =>
          let (value, isQuoted) := match a.value with
            | .bare => (([] : Bytes), false)
            | .quoted _ v => (v, true)
            | .braced v => (v, false)
          match ParamType.ofLabel? value, isQuoted with
          | some t, true => pure (some t)
          | _, _ => do
              fault (← posOf a.offset) (.badParamType value)
              pure none
    let default : Option (Option Expression) ←
      match findAttr attrs "default" with
      | none => pure (some none)
      | some _ => do
          match ← exprAttr name pos attrs "default" false with
          | some e => pure (some (some e))
          | none => pure none
    match param, type, default with
    | some (some n), some t, some d => return (.param (some ⟨pos, n, t, d⟩), false)
    | _, _, _ => return (.param none, false)
  else if name == Bytes.ofString "t:slot" then
    let attrs ← knownAttrs name ["name"] attrs
    let slot ← nameAttr name pos attrs "name" true Name.isIdent
    match frames.head?.map (·.kind) with
    | some (Opened.invocation _ _) => return (.slot (slot.getD none), false)
    | _ =>
        fault pos .straySlot
        return (.slot none, false)
  else if name == Bytes.ofString "t:if" then
    let attrs ← knownAttrs name ["cond"] attrs
    return (.cond (← exprAttr name pos attrs "cond" true) none, false)
  else if name == Bytes.ofString "t:else" then
    let _ ← knownAttrs name [] attrs
    return (.otherwise, false)
  else if name == Bytes.ofString "t:for" then
    let attrs ← knownAttrs name ["each", "as", "index"] attrs
    let each ← exprAttr name pos attrs "each" true
    let item ← nameAttr name pos attrs "as" true Name.isIdent
    let index ← nameAttr name pos attrs "index" false Name.isIdent
    match item, index with
    | some (some i), some k =>
        if k == some i then
          match findAttr attrs "index" with
          | some a => fault (← posOf a.offset) .sameLoopNames
          | none => pure ()
          return (.loop none, false)
        else return (.loop (each.map fun e => (e, i, k.getD [])), false)
    | _, _ => return (.loop none, false)
  else return (.invocation (← attrArgs attrs) [], false)

def TagProblem.toFault (element : Bytes) : TagProblem → Fault
  | .unterminated => .unterminatedTag element
  | .malformedAttr => .malformedAttr element
  | .unquotedValue attr => .unquotedValue attr
  | .openValue attr => .openValue attr

/-! ## The fold -/

def step : Token → Build Unit
  | .text offset s => do addNode (.literal (← posOf offset) s)
  | .interpolation offset source => do
      let pos ← posOf offset
      match source with
      | none => fault pos .openInterpolation
      | some source =>
          if Name.isBlank source then fault pos .emptyInterpolation
          else match Expression.parse source with
            | .ok e => addNode (.interpolation pos e none)
            | .error err => fault pos (.badInterpolation source err)
  | .closing offset name malformed => do
      closeTag (← posOf offset) name malformed ((← get).frames.length + 1)
  | .opening offset name attrs problem selfClosing => do
      let pos ← posOf offset
      match problem with
      | some (_, .unterminated) => fault pos (.unterminatedTag name)
      | some (at_, p) => fault (← posOf at_) (p.toFault name)
      | none => pure ()
      let (kind, allowParams) ← openElement pos name attrs
      let frame : Frame := ⟨kind, name, pos, .empty allowParams⟩
      if selfClosing then deliver frame
      else modify fun st => { st with frames := frame :: st.frames }

def run : List Token → Build Unit
  | [] => pure ()
  | t :: ts => do
      step t
      if !(← get).aborted then run ts

def parse (file path source : Bytes) : Template × List (Pos × Fault) :=
  let start : Builder := ⟨source, file, [], .empty true, [], [], false⟩
  let (_, st) := (do
    run (lex source)
    closeAll ((← get).frames.length + 1) : Build Unit).run start
  let root : Definition :=
    ⟨Name.ofPath path, true, .start, st.root.decls, st.root.nodes, file, path⟩
  let hasRoot := !st.root.decls.isEmpty || !Node.allBlank st.root.nodes
  (⟨path, file, (if hasRoot then [root] else []) ++ st.defs.map ({ · with template := path })⟩,
    st.faults.reverse)

def diagnostics (file : Bytes) (faults : List (Pos × Fault)) : List Diagnostic :=
  faults.map fun (pos, f) => .error .source file pos.line pos.column f.message

end TagLoom.Template

import TagLoom.TagSet

/-!
# Inference of parameter types

Each use of a parameter is evidence for its type: a body bound to it makes it content, a use
inside a larger expression makes it a value, a use as text makes it a scalar.  A parameter
handed on unchanged shares evidence with the parameter that receives it, and evidence is
spread over such pairs until nothing changes.
-/

namespace TagLoom.Inference

structure Use where
  file : Bytes
  pos : Pos
deriving DecidableEq, Inhabited

def Use.toBytes (u : Use) : Bytes := u.file ++ ":" ++ u.pos.toBytes

/-- A parameter of a tag with the first evidence of each kind: as content, as a structured
value, and as a scalar. -/
structure Slot where
  tag : Bytes
  file : Bytes
  param : Param
  content : Option Use
  value : Option Use
  scalar : Option Use
deriving Inhabited

namespace Slot

def isContent (s : Slot) : Bool :=
  s.content.isSome || (s.param.explicit && s.param.type == .content)

def isValue (s : Slot) : Bool := s.value.isSome || (s.param.explicit && s.param.type == .value)

def contentUse (s : Slot) : Use := s.content.getD ⟨s.file, s.param.pos⟩

def asContent (u : Use) (s : Slot) : Slot := { s with content := s.content <|> some u }

def asValue (u : Use) (s : Slot) : Slot := { s with value := s.value <|> some u }

def asScalar (u : Use) (s : Slot) : Slot := { s with scalar := s.scalar <|> some u }

end Slot

/-- All parameters found so far: tags by name, parameters in signature order. -/
abbrev Slots := List Slot

namespace Slots

def find? (slots : Slots) (tag name : Bytes) : Option Slot :=
  List.find? (fun s => s.tag == tag && s.param.name == name) slots

def has (slots : Slots) (tag name : Bytes) : Bool := (find? slots tag name).isSome

def update (slots : Slots) (tag name : Bytes) (f : Slot → Slot) : Slots :=
  slots.map fun s => if s.tag == tag && s.param.name == name then f s else s

def ofTag (slots : Slots) (tag : Bytes) : List Slot := slots.filter (·.tag == tag)

end Slots

/-! ## Reads -/

inductive ReadMode where
  /-- Written into the page. -/
  | render
  /-- Written into text, which cannot hold content. -/
  | scalar
  /-- Used inside a larger expression. -/
  | structural
  /-- Bound to an argument, whose parameter decides. -/
  | passThrough
deriving DecidableEq

/-- One expression read by a body: the names that are not loop variables, where, and how. -/
structure Read where
  names : List Bytes
  pos : Pos
  mode : ReadMode

def enterLoop (scope : List Bytes) (item index : Bytes) : List Bytes :=
  item :: (if index.isEmpty then scope else index :: scope)

def readOf (scope : List Bytes) (e : Expression) (pos : Pos) (mode : ReadMode) : Read :=
  ⟨e.names.filter (!scope.contains ·), pos, if e.isBare then mode else .structural⟩

def partReads (scope : List Bytes) (parts : List Part) : List Read :=
  parts.filterMap fun p =>
    match p with
    | .interpolation pos e => some (readOf scope e pos .scalar)
    | .literal _ _ => none

/-- Reads that belong to a node at a position; blocks of an invocation are read in the order
their nodes stand in the source. -/
structure NodeReads where
  pos : Pos
  reads : List Read

def inSourceOrder (nodes : List NodeReads) : List Read :=
  (nodes.mergeSort fun a b => !b.pos.before a.pos).flatMap (·.reads)

mutual

@[grind =] def nodeReads (scope : List Bytes) : Node → List Read
  | .literal _ _ => []
  | .interpolation pos e _ => [readOf scope e pos .render]
  | .cond pos e body none => readOf scope e pos .structural :: bodyReads scope body
  | .cond pos e body (some other) =>
      readOf scope e pos .structural :: (bodyReads scope body ++ bodyReads scope other)
  | .loop pos e item index body =>
      readOf scope e pos .structural :: bodyReads (enterLoop scope item index) body
  | .invocation _ _ args => attrReads scope args ++ inSourceOrder (blockReads scope args)

@[grind =] def bodyReads (scope : List Bytes) : List Node → List Read
  | [] => []
  | n :: ns => nodeReads scope n ++ bodyReads scope ns

@[grind =] def attrReads (scope : List Bytes) : List Arg → List Read
  | [] => []
  | .text _ _ parts :: as => partReads scope parts ++ attrReads scope as
  | .expr pos _ e :: as => readOf scope e pos .passThrough :: attrReads scope as
  | .content _ _ _ :: as => attrReads scope as

@[grind =] def blockReads (scope : List Bytes) : List Arg → List NodeReads
  | [] => []
  | .content _ _ body :: as => siblingReads scope body ++ blockReads scope as
  | .text _ _ _ :: as => blockReads scope as
  | .expr _ _ _ :: as => blockReads scope as

@[grind =] def siblingReads (scope : List Bytes) : List Node → List NodeReads
  | [] => []
  | n :: ns => ⟨n.pos, nodeReads scope n⟩ :: siblingReads scope ns

end

def recordName (d : Definition) (r : Read) (slots : Slots) (name : Bytes) : Slots :=
  let slots : Slots :=
    if slots.has d.name name then slots
    else slots ++ [⟨d.name, d.file, ⟨name, .unknown, true, none, false, r.pos⟩, none, none, none⟩]
  let at_ : Use := ⟨d.file, r.pos⟩
  match r.mode with
  | .structural => slots.update d.name name (·.asValue at_)
  | .scalar => slots.update d.name name (·.asScalar at_)
  | .render | .passThrough => slots

def recordRead (d : Definition) (slots : Slots) (r : Read) : Slots :=
  r.names.foldl (recordName d r) slots

def declared (d : Definition) (decl : Declaration) : Slot :=
  let value :=
    match decl.default with
    | some e =>
        match e.literal? with
        | some (.text _) | some .nil => none
        | _ => some ⟨d.file, decl.pos⟩
    | none => none
  ⟨d.name, d.file,
    ⟨decl.name, decl.type, decl.default.isNone, decl.default, decl.type != .unknown, decl.pos⟩,
    none, value, none⟩

def collect (d : Definition) : Slots :=
  (bodyReads [] d.body).foldl (recordRead d) (d.decls.map (declared d))

def defaultReports (d : Definition) : List Diagnostic :=
  d.decls.filterMap fun decl =>
    match decl.default with
    | some e =>
        if e.names.isEmpty then none
        else some (.error .inference d.file decl.pos.line decl.pos.column
          ("default of parameter " ++ Bytes.quote decl.name ++ " must not reference " ++
            Bytes.join ", " e.names))
    | none => none

/-! ## Calls -/

/-- An invocation with the tag it stands in and the loop variables around it. -/
structure CallSite where
  caller : Bytes
  file : Bytes
  scope : List Bytes
  pos : Pos
  name : Bytes
  args : List Arg

mutual

@[grind =] def nodeCalls (d : Definition) (scope : List Bytes) : Node → List CallSite
  | .literal _ _ => []
  | .interpolation _ _ _ => []
  | .cond _ _ body none => bodyCalls d scope body
  | .cond _ _ body (some other) => bodyCalls d scope body ++ bodyCalls d scope other
  | .loop _ _ item index body => bodyCalls d (enterLoop scope item index) body
  | .invocation pos name args =>
      ⟨d.name, d.file, scope, pos, name, args⟩ :: argCalls d scope args

@[grind =] def bodyCalls (d : Definition) (scope : List Bytes) : List Node → List CallSite
  | [] => []
  | n :: ns => nodeCalls d scope n ++ bodyCalls d scope ns

@[grind =] def argCalls (d : Definition) (scope : List Bytes) : List Arg → List CallSite
  | [] => []
  | .content _ _ body :: as => bodyCalls d scope body ++ argCalls d scope as
  | .text _ _ _ :: as => argCalls d scope as
  | .expr _ _ _ :: as => argCalls d scope as

end

def callSites (d : Definition) : List CallSite := bodyCalls d [] d.body

structure SlotRef where
  tag : Bytes
  name : Bytes
deriving DecidableEq

/-- A parameter of the caller handed on unchanged to a parameter of the callee. -/
structure Handover where
  caller : SlotRef
  callee : SlotRef
  at_ : Use
deriving DecidableEq

def handedOn (slots : Slots) (site : CallSite) : Arg → Option SlotRef
  | .expr _ _ e =>
      if e.isBare && !site.scope.contains e.source && slots.has site.caller e.source then
        some ⟨site.caller, e.source⟩
      else none
  | _ => none

def Arg.isContent : Arg → Bool
  | .content _ _ _ => true
  | _ => false

def bindArg (site : CallSite) (acc : Slots × List Handover) (a : Arg) : Slots × List Handover :=
  let (slots, handovers) := acc
  let at_ : Use := ⟨site.file, a.pos⟩
  let origin := handedOn slots site a
  if Name.isBuiltin site.name then
    match origin with
    | some r => (slots.update r.tag r.name (·.asScalar at_), handovers)
    | none => acc
  else if !slots.has site.name a.name then acc
  else if Arg.isContent a then (slots.update site.name a.name (·.asContent at_), handovers)
  else match origin with
    | some r => (slots, handovers ++ [⟨r, ⟨site.name, a.name⟩, at_⟩])
    | none => (slots.update site.name a.name (·.asScalar at_), handovers)

def bindCall (acc : Slots × List Handover) (site : CallSite) : Slots × List Handover :=
  site.args.foldl (bindArg site) acc

/-! ## Spreading evidence -/

def isContentAt (slots : Slots) (r : SlotRef) : Bool :=
  ((slots.find? r.tag r.name).map (·.isContent)).getD false

def isValueAt (slots : Slots) (r : SlotRef) : Bool :=
  ((slots.find? r.tag r.name).map (·.isValue)).getD false

def hasValueUse (slots : Slots) (r : SlotRef) : Bool :=
  ((slots.find? r.tag r.name).map (·.value.isSome)).getD false

/-- Shares evidence over one handover: both ends are content or none is, and what is handed to
a structured value is one. -/
def share (slots : Slots) (h : Handover) : Slots :=
  let slots :=
    if isContentAt slots h.callee && !isContentAt slots h.caller then
      slots.update h.caller.tag h.caller.name (·.asContent h.at_)
    else if isContentAt slots h.caller && !isContentAt slots h.callee then
      slots.update h.callee.tag h.callee.name (·.asContent h.at_)
    else slots
  if isValueAt slots h.callee && !hasValueUse slots h.caller then
    slots.update h.caller.tag h.caller.name (·.asValue h.at_)
  else slots

def shareAll (handovers : List Handover) (slots : Slots) : Slots := handovers.foldl share slots

def missing (slots : Slots) : Nat :=
  slots.foldr (fun s n =>
    (if s.content.isNone then 1 else 0) + (if s.value.isNone then 1 else 0) + n) 0

/-- Repeats a round while it brings evidence.  A round that brings none changes nothing, so as
many rounds as there are pieces of missing evidence are enough. -/
def spread (handovers : List Handover) : Nat → Slots → Slots
  | 0, slots => slots
  | fuel + 1, slots =>
      let next := shareAll handovers slots
      if missing next == missing slots then slots else spread handovers fuel next

/-! ## Types -/

def firstUse : Option Use → Option Use → Option Use
  | none, u => u
  | some u, none => some u
  | some u, some v => if v.file == u.file && v.pos.before u.pos then some v else some u

/-- The type of a parameter.  Content wins over value and value over text; a declared type
stands unless content arrives. -/
def typeOf (s : Slot) : ParamType :=
  if s.isContent then .content
  else if s.param.explicit then s.param.type
  else if s.value.isSome then .value
  else .text

def slotReports (s : Slot) : List Diagnostic :=
  let subject := "parameter " ++ Bytes.quote s.param.name ++ " of <" ++ s.tag ++ "> is "
  if s.isContent then
    (match firstUse s.value s.scalar with
      | some u => [.error .inference u.file u.pos.line u.pos.column
          (subject ++ "used as content at " ++ s.contentUse.toBytes ++ " and as a scalar here")]
      | none => []) ++
    (if s.param.explicit && s.param.type != .content then
      [.error .inference s.file s.param.pos.line s.param.pos.column
        (subject ++ "declared " ++ s.param.type.label ++ " but receives content at " ++
          s.contentUse.toBytes)]
    else [])
  else if s.param.explicit then
    match s.param.type, s.value with
    | .text, some u => [.error .inference u.file u.pos.line u.pos.column
        (subject ++ "declared text but used as a structured value here")]
    | _, _ => []
  else []

def signatureOf (slots : Slots) (tag : Bytes) : Signature :=
  ⟨tag, (slots.ofTag tag).map fun s => { s.param with type := typeOf s }⟩

/-! ## Checking calls -/

/-- The names bound so far by the arguments of a call, and the reports on them. -/
structure Bound where
  names : List Bytes
  reports : List Diagnostic

def siteError (site : CallSite) (pos : Pos) (message : Bytes) : Diagnostic :=
  .error .inference site.file pos.line pos.column message

def repeated (site : CallSite) (a : Arg) : Diagnostic :=
  siteError site a.pos ("argument " ++ Bytes.quote a.name ++ " of <" ++ site.name ++
    "> is bound more than once")

def unknownParam (site : CallSite) (a : Arg) (known : List Bytes) : Diagnostic :=
  (siteError site a.pos ("<" ++ site.name ++ "> has no parameter " ++ Bytes.quote a.name)).suggesting
    a.name known

def checkArg (site : CallSite) (sig : Signature) (acc : Bound) (a : Arg) : Bound :=
  if (sig.param? a.name).isNone then
    { acc with reports := acc.reports ++ [unknownParam site a sig.names] }
  else if acc.names.contains a.name then { acc with reports := acc.reports ++ [repeated site a] }
  else { acc with names := acc.names ++ [a.name] }

/-- Checks a call of a user tag; all missing arguments are one report. -/
def checkCall (sig : Signature) (site : CallSite) : List Diagnostic :=
  let bound := site.args.foldl (checkArg site sig) ⟨[], []⟩
  let absent := (sig.params.filter fun p => p.required && !bound.names.contains p.name).map
    fun p => Bytes.quote p.name
  bound.reports ++
    (if absent.isEmpty then []
     else [siteError site site.pos ("<" ++ site.name ++ "> is missing required " ++
      (if absent.length > 1 then Bytes.ofString "arguments" else "argument") ++ " " ++
      Bytes.join ", " absent)])

def checkBuiltinValue (b : Builtin) (p : BuiltinParam) (site : CallSite) (a : Arg) :
    List Diagnostic :=
  let subject := "argument " ++ Bytes.quote a.name ++ " of <" ++ site.name ++ "> must be "
  if Arg.isContent a then [siteError site a.pos (subject ++ "a scalar, not content")]
  else if p.isStatic then
    match a.staticText? with
    | none => [siteError site a.pos (subject ++ "plain quoted text")]
    | some s =>
        if b.write == .sanitized && (Policy.ofLabel? s).isNone then
          [siteError site a.pos ("unknown sanitize policy " ++ Bytes.quote s ++ " (want " ++
            Policy.ugc.label ++ " or " ++ Policy.strict.label ++ ")")]
        else []
  else []

def checkBuiltinArg (b : Builtin) (site : CallSite) (acc : Bound) (a : Arg) : Bound :=
  match b.param? a.name with
  | none =>
      let r := if Arg.isContent a then
          siteError site a.pos ("<" ++ site.name ++ "> does not take content")
        else unknownParam site a (b.params.map (·.name))
      { acc with reports := acc.reports ++ [r] }
  | some p =>
      if acc.names.contains a.name then { acc with reports := acc.reports ++ [repeated site a] }
      else ⟨acc.names ++ [a.name], acc.reports ++ checkBuiltinValue b p site a⟩

def checkBuiltin (b : Builtin) (site : CallSite) : List Diagnostic :=
  let bound := site.args.foldl (checkBuiltinArg b site) ⟨[], []⟩
  let absent := Bytes.sort ((b.params.filter fun p =>
    p.required && !bound.names.contains p.name).map fun p => Bytes.quote p.name)
  bound.reports ++
    (if absent.isEmpty then []
     else [siteError site site.pos ("<" ++ site.name ++ "> is missing required argument " ++
      Bytes.join ", " absent)])

/-- Checks an invocation against the signatures; unknown tags are reported elsewhere. -/
def checkSite (sigs : List Signature) (site : CallSite) : List Diagnostic :=
  if Name.isBuiltin site.name then
    ((Builtin.find? site.name).map fun b => checkBuiltin b site).getD []
  else ((Signature.find? sigs site.name).map fun sig => checkCall sig site).getD []

/-! ## All together -/

/-- The slots of all tags with the evidence their bodies and callers give, spread over
handovers. -/
def evidence (set : TagSet) : Slots :=
  let slots : Slots := set.defs.flatMap collect
  let (slots, handovers) := (set.defs.flatMap callSites).foldl bindCall (slots, [])
  spread handovers (missing slots + 1) slots

def infer (set : TagSet) : List Signature × List Diagnostic :=
  let slots := evidence set
  let sigs := set.defs.map fun d => signatureOf slots d.name
  (sigs, set.defs.flatMap defaultReports ++ set.defs.flatMap (fun d =>
      (slots.ofTag d.name).flatMap slotReports) ++
    (set.defs.flatMap callSites).flatMap (checkSite sigs))

end TagLoom.Inference

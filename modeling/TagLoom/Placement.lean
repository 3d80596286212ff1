import TagLoom.Inference
import TagLoom.Markup

/-!
# Escaping by place

Every interpolation is escaped as the HTML around it needs.  The place is tracked through each
tag body; branches must end where they agree, loops where they began, and tags and blocks
in text.
-/

namespace TagLoom.Placement

/-- A tag with its parameters, for which a body is being looked at. -/
structure Subject where
  definition : Definition
  signature : Signature

def Subject.error (t : Subject) (pos : Pos) (message : Bytes) : Diagnostic :=
  .error .generation t.definition.file pos.line pos.column message

def isContentRead (t : Subject) (scope : List Bytes) (e : Expression) : Bool :=
  e.isBare && !scope.contains e.source &&
    ((t.signature.param? e.source).map fun p => p.type == .content).getD false

/-- How a value is escaped at a place, or why it may not stand there. -/
def escapeAt (t : Subject) (scope : List Bytes) (pos : Pos) (e : Expression) (m : Markup) :
    Except Diagnostic Escape :=
  match m with
  | .text => .ok .html
  | .quotedValue _ attr _ =>
      if isContentRead t scope e then
        .error (t.error pos ("content parameter " ++ Bytes.quote e.source ++
          " cannot be written inside the " ++ attr ++ " attribute"))
      else .ok (if m.holdsUrl then .url else .attr)
  | .unquotedValue _ attr | .beforeValue _ attr =>
      .error (t.error pos ("interpolation in the unquoted value of attribute " ++ attr ++
        "; quote the value"))
  | .rawText elem =>
      .error (t.error pos ("interpolation inside <" ++ elem ++ "> is not supported"))
  | _ => .error (t.error pos ("interpolation in HTML " ++ m.label ++
      " context; only text and quoted attribute values can be interpolated"))

/-- The outcome for a sequence: the nodes with their escapes, where it ends, and reports. -/
structure Placed (α : Type) where
  result : α
  stop : Markup
  reports : List Diagnostic

mutual

@[grind =] def placeNode (t : Subject) (scope : List Bytes) (m : Markup) : Node → Placed Node
  | .literal p s => ⟨.literal p s, m.advance s, []⟩
  | .interpolation p e _ =>
      match escapeAt t scope p e m with
      | .ok escape => ⟨.interpolation p e (some escape), m, []⟩
      | .error d => ⟨.interpolation p e none, m, [d]⟩
  | .invocation p name args =>
      let here := if m.isText then [] else [t.error p ("<" ++ name ++ "> is invoked inside an HTML " ++
        m.label ++ "; tags can only be invoked where text is allowed")]
      let (args, reports) := placeArgs t scope name args
      ⟨.invocation p name args, m, here ++ reports⟩
  | .loop p e item index body =>
      let inner := placeNodes t (Inference.enterLoop scope item index) m body
      ⟨.loop p e item index inner.result, m, inner.reports ++
        (if inner.stop == m then []
         else [t.error p ("body of <t:for> starts in HTML " ++ m.label ++ " but ends in " ++
          inner.stop.label)])⟩
  | .cond p e body none =>
      let yes := placeNodes t scope m body
      ⟨.cond p e yes.result none, yes.stop, yes.reports ++ branchReport t p yes.stop m⟩
  | .cond p e body (some other) =>
      let yes := placeNodes t scope m body
      let no := placeNodes t scope m other
      ⟨.cond p e yes.result (some no.result), yes.stop,
        yes.reports ++ no.reports ++ branchReport t p yes.stop no.stop⟩

@[grind =]
def placeNodes (t : Subject) (scope : List Bytes) (m : Markup) : List Node → Placed (List Node)
  | [] => ⟨[], m, []⟩
  | n :: ns =>
      let first := placeNode t scope m n
      let rest := placeNodes t scope first.stop ns
      ⟨first.result :: rest.result, rest.stop, first.reports ++ rest.reports⟩

@[grind =] def placeArgs (t : Subject) (scope : List Bytes) (name : Bytes) :
    List Arg → List Arg × List Diagnostic
  | [] => ([], [])
  | .content p arg body :: as =>
      let inner := placeNodes t scope .text body
      let (rest, reports) := placeArgs t scope name as
      (.content p arg inner.result :: rest, inner.reports ++
        (if inner.stop.isText then []
         else [t.error p ("content argument " ++ Bytes.quote arg ++ " of <" ++ name ++
          "> ends inside an HTML " ++ inner.stop.label)]) ++ reports)
  | .text p arg parts :: as =>
      let (rest, reports) := placeArgs t scope name as
      (.text p arg parts :: rest, reports)
  | .expr p arg e :: as =>
      let (rest, reports) := placeArgs t scope name as
      (.expr p arg e :: rest, reports)

def branchReport (t : Subject) (p : Pos) (yes no : Markup) : List Diagnostic :=
  if yes == no then []
  else [t.error p ("branches of <t:if> end in different HTML contexts (" ++ yes.label ++ " and " ++
    no.label ++ ")")]

end

def placeDefinition (sigs : List Signature) (d : Definition) : Definition × List Diagnostic :=
  let t : Subject := ⟨d, (Signature.find? sigs d.name).getD ⟨d.name, []⟩⟩
  let body := placeNodes t [] .text d.body
  ({ d with body := body.result }, body.reports ++
    (if body.stop.isText then []
     else [t.error d.pos ("tag " ++ Bytes.quote d.name ++ " ends inside an HTML " ++
      body.stop.label)]))

def place (set : TagSet) (sigs : List Signature) : TagSet × List Diagnostic :=
  let placed := set.defs.map (placeDefinition sigs)
  ({ set with defs := placed.map (·.1) }, placed.flatMap (·.2))

end TagLoom.Placement

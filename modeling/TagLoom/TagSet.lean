import TagLoom.Builtin
import TagLoom.Suggestion

/-!
# Tag sets

All tags of the templates of one pass under their names.  Tags refer to each other by name,
so tags that invoke each other need no special care: names are looked up once every tag is
known.
-/

namespace TagLoom

/-- The tags of a pass: its templates by logical path, the accepted tags by name, and the
tags each tag invokes. -/
structure TagSet where
  templates : List Template
  defs : List Definition
  calls : List (Bytes × List Bytes)
deriving Inhabited

namespace TagSet

def find? (set : TagSet) (name : Bytes) : Option Definition := set.defs.find? (·.name == name)

def contains (set : TagSet) (name : Bytes) : Bool := set.defs.any (·.name == name)

def names (set : TagSet) : List Bytes := set.defs.map (·.name)

def callsOf (set : TagSet) (name : Bytes) : List Bytes :=
  ((set.calls.find? (·.1 == name)).map (·.2)).getD []

/-! ## Collecting tags -/

/-- Accepted tags so far, the identifiers they map to, and the reports. -/
structure Collected where
  defs : List Definition
  idents : List (Bytes × Bytes)
  reports : List Diagnostic

def report (d : Definition) (message : Bytes) : Diagnostic :=
  .error .resolution d.file d.pos.line d.pos.column message

def collect (acc : Collected) (d : Definition) : Collected :=
  match acc.defs.find? (·.name == d.name) with
  | some first =>
      { acc with
        reports := acc.reports ++ [report d ("duplicate tag " ++ Bytes.quote d.name ++
          " (first declared at " ++ first.file ++ ":" ++ first.pos.toBytes ++ ")")] }
  | none =>
      let acc := { acc with defs := acc.defs ++ [d] }
      let ident := Name.exported d.name
      if ident == Name.reserved then
        { acc with reports := acc.reports ++ [report d ("tag " ++ Bytes.quote d.name ++
            " maps to the Go identifier " ++ ident ++ ", which is reserved")] }
      else match acc.idents.find? (·.1 == ident) with
        | some (_, other) =>
            { acc with reports := acc.reports ++ [report d ("tags " ++ Bytes.quote other ++
                " and " ++ Bytes.quote d.name ++ " both map to the Go identifier " ++ ident)] }
        | none => { acc with idents := acc.idents ++ [(ident, d.name)] }

/-- The names of user tags a body invokes at top level or deeper, in document order. -/
def invoked (nodes : List Node) : List (Pos × Bytes × Bool) :=
  (Node.walk nodes).filterMap fun (n, guarded) =>
    match n with
    | .invocation p name _ => some (p, name, guarded)
    | _ => none

def unresolved (names : List Bytes) (d : Definition) : List Diagnostic :=
  (invoked d.body).filterMap fun (pos, name, _) =>
    let here (message : Bytes) : Diagnostic :=
      .error .resolution d.file pos.line pos.column message
    if Name.isBuiltin name then
      if (Builtin.find? name).isSome then none
      else some ((here ("unknown built-in <" ++ name ++ ">")).suggesting name Builtin.names)
    else if names.contains name then none
    else some ((here ("unknown tag " ++ Bytes.quote name)).suggesting name names)

/-- The known user tags a body invokes, sorted. -/
def callees (names : List Bytes) (d : Definition) : List Bytes :=
  Bytes.sort (Bytes.dedup ((invoked d.body).filterMap fun (_, name, _) =>
    if !Name.isBuiltin name && names.contains name then some name else none))

/-! ## Unconditional recursion -/

/-- The known user tags a body invokes whenever it is rendered, in document order. -/
def certainCallees (names : List Bytes) (d : Definition) : List Bytes :=
  Bytes.dedup ((invoked d.body).filterMap fun (_, name, guarded) =>
    if !guarded && !Name.isBuiltin name && names.contains name then some name else none)

abbrev Graph := List (Bytes × List Bytes)

def Graph.successors (g : Graph) (v : Bytes) : List Bytes :=
  ((g.find? (·.1 == v)).map (·.2)).getD []

/-- The state of the search for strongly connected components: the number each visited vertex
got, the lowest number it is known to reach, the vertices not yet in a component, and the
components found. -/
structure Search where
  index : List (Bytes × Nat)
  low : List (Bytes × Nat)
  stack : List Bytes
  components : List (List Bytes)

namespace Search

def indexOf? (st : Search) (v : Bytes) : Option Nat := (st.index.find? (·.1 == v)).map (·.2)

def lowOf (st : Search) (v : Bytes) : Nat := ((st.low.find? (·.1 == v)).map (·.2)).getD 0

def lower (st : Search) (v : Bytes) (n : Nat) : Search :=
  { st with low := (v, min (st.lowOf v) n) :: st.low.filter (·.1 != v) }

/-- Moves the stack down to a vertex into a component, in the order of the names. -/
def popTo (st : Search) (names : List Bytes) (v : Bytes) : Search :=
  let members := st.stack.takeWhile (· != v) ++ [v]
  { st with
    stack := (st.stack.dropWhile (· != v)).drop 1
    components := st.components ++ [names.filter members.contains] }

mutual

@[grind =] def visit (g : Graph) (names : List Bytes) : Nat → Search → Bytes → Search
  | 0, st, _ => st
  | fuel + 1, st, v =>
      let n := st.index.length
      let st := { st with index := (v, n) :: st.index, low := (v, n) :: st.low,
                          stack := v :: st.stack }
      let st := visitAll g names fuel st v (g.successors v)
      if st.lowOf v == n then st.popTo names v else st

@[grind =]
def visitAll (g : Graph) (names : List Bytes) : Nat → Search → Bytes → List Bytes → Search
  | 0, st, _, _ => st
  | _ + 1, st, _, [] => st
  | fuel + 1, st, v, w :: ws =>
      let st :=
        match st.indexOf? w with
        | none =>
            let st := visit g names fuel st w
            st.lower v (st.lowOf w)
        | some i => if st.stack.contains w then st.lower v i else st
      visitAll g names fuel st v ws

end

end Search

def components (names : List Bytes) (g : Graph) : List (List Bytes) :=
  let fuel := 2 * (names.length + g.foldr (fun v n => v.2.length + n) 0 + 2)
  (names.foldl (fun (st : Search) v =>
    if (st.indexOf? v).isSome then st else Search.visit g names fuel st v)
    ⟨[], [], [], []⟩).components

def recursionWarnings (defs : List Definition) : List Diagnostic :=
  let names := defs.map (·.name)
  let graph : Graph := defs.map fun d => (d.name, certainCallees names d)
  (components names graph).filterMap fun component =>
    match component with
    | [] => none
    | v :: others =>
        if others.isEmpty && !(graph.successors v).contains v then none
        else (defs.find? (·.name == v)).map fun d =>
          .warning .resolution d.file d.pos.line d.pos.column
            ("tag " ++ Bytes.quote d.name ++ " recurses without a conditional base case (" ++
              Bytes.join " -> " (component ++ [v]) ++ "); rendering it will not terminate")

/-! ## Building -/

/-- The tag set of some templates and the reports on it.  Of tags with one name the first in
path order is kept. -/
def build (templates : List Template) : TagSet × List Diagnostic :=
  let sorted := templates.mergeSort fun a b => Bytes.le a.path b.path
  let all := sorted.flatMap (·.defs)
  let collected := all.foldl collect ⟨[], [], []⟩
  let defs := collected.defs.mergeSort fun a b => Bytes.le a.name b.name
  let names := defs.map (·.name)
  let calls := defs.map fun d => (d.name, callees names d)
  (⟨sorted, defs, calls⟩,
    collected.reports ++ all.flatMap (unresolved names) ++ recursionWarnings defs)

end TagSet

/-!
## Signatures

The formal parameters of tags.  Declared parameters come first, then the names a body reads,
in the order it first reads them.
-/

structure Param where
  name : Bytes
  type : ParamType
  required : Bool
  default : Option Expression
  /-- Whether a declaration gave the type. -/
  explicit : Bool
  pos : Pos
deriving Inhabited

namespace Param

/-- The type as callers see it: what is not content or a value is text. -/
def kind (p : Param) : ParamType :=
  match p.type with
  | .content => .content
  | .value => .value
  | _ => .text

end Param

structure Signature where
  tag : Bytes
  params : List Param
deriving Inhabited

namespace Signature

def param? (s : Signature) (name : Bytes) : Option Param := s.params.find? (·.name == name)

def names (s : Signature) : List Bytes := s.params.map (·.name)

def find? (sigs : List Signature) (tag : Bytes) : Option Signature := sigs.find? (·.tag == tag)

end Signature

end TagLoom

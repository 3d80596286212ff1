import TagLoom.Code

/-!
# Emitting code

The generated code of a tag body.  Prepared expressions and variables are numbered and named in
the order the code needs them, so equal templates give equal code.
-/

namespace TagLoom.Code

/-- What emission keeps: the prepared expressions of the file, the variables in use in the
function, and the number of its loops. -/
structure EmitState where
  programs : List Bytes
  used : List Bytes
  loops : Nat

abbrev Emit := StateM EmitState

/-- A template name in scope: the variable that holds it and its type. -/
structure Local where
  name : Bytes
  id : Bytes
  type : ParamType

structure Setting where
  signatures : List Signature
  functions : List Bytes

def lookup (scope : List Local) (name : Bytes) : Option Local := scope.find? (·.name == name)

def program (source : Bytes) : Emit Nat := do
  let st ← get
  match st.programs.findIdx? (· == source) with
  | some i => return i
  | none =>
      set { st with programs := st.programs ++ [source] }
      return st.programs.length

def declare (s : Setting) (name : Bytes) : Emit Bytes := do
  let st ← get
  let id := variableFor s.functions st.used name
  set { st with used := st.used ++ [id] }
  return id

/-! ## Values -/

def literalTerm : Literal → Term × ParamType
  | .text t => (.text t, .text)
  | l => (.constant l, .value)

def envOf (scope : List Local) (e : Expression) : Option (List (Bytes × Bytes)) :=
  if e.names.isEmpty then none
  else some (e.names.filterMap fun n => (lookup scope n).map fun l => (n, l.id))

def value (scope : List Local) (e : Expression) : Emit (Term × ParamType) := do
  match if e.isBare then lookup scope e.source else none with
  | some l => return (.name l.id, l.type)
  | none =>
      match e.literal? with
      | some l => return literalTerm l
      | none => return (.eval (← program e.source) (envOf scope e), .value)

def asText (t : Term) (type : ParamType) : Term := if type == .text then t else .toText t

def partTerm (scope : List Local) : Part → Emit Term
  | .literal _ s => return .text s
  | .interpolation _ e => do
      let (t, type) ← value scope e
      return asText t type

def quoted (scope : List Local) (parts : List Part) : Emit Term := do
  match ← parts.mapM (partTerm scope) with
  | [] => return .text []
  | [t] => return t
  | ts => return .concat ts

def handOver (t : Term) (given wanted : ParamType) : Term :=
  if given == wanted then t
  else match wanted with
    | .text => asText t given
    | .content => .asContent t
    | _ => t

def defaultTerm (scope : List Local) (p : Param) : Emit Term := do
  match p.default with
  | none => return if p.type == .text then .text [] else .constant .nil
  | some e =>
      let (t, type) ← value scope e
      match p.type with
      | .content => return if type == .text then .textContent t else .asContent t
      | .text => return asText t type
      | _ => return t

def writeForm : ParamType → WriteForm
  | .content => .block
  | .text => .text
  | _ => .value

/-! ## Nodes -/

abbrev ArgCode := ParamType → Emit Term

def argFor (codes : List (Bytes × ArgCode)) (name : Bytes) : Option ArgCode :=
  (codes.find? (·.1 == name)).map (·.2)

def builtinStmt (scope : List Local) (b : Builtin) (args : List Arg) : Emit Stmt := do
  let t ←
    match Arg.find? args "value" with
    | some (.text _ _ parts) => quoted scope parts
    | some (.expr _ _ e) => (·.1) <$> value scope e
    | _ => pure (.constant .nil)
  match b.write with
  | .raw => return .write .value t .none
  | .markdown => return .markdown t
  | .sanitized => return .sanitized t (b.staticArg args "policy")

def callStmt (s : Setting) (scope : List Local) (name : Bytes) (codes : List (Bytes × ArgCode)) :
    Emit Stmt := do
  let params := ((Signature.find? s.signatures name).map (·.params)).getD []
  let args ← params.mapM fun p =>
    match argFor codes p.name with
    | some code => code p.type
    | none => defaultTerm scope p
  return .call (Name.exported name) args

/-- The statements before one, without an empty constant write. -/
def flushed (pending : Bytes) (rest : List Stmt) : List Stmt :=
  if pending.isEmpty then rest else .raw pending :: rest

mutual

@[grind =] def nodeStmt (s : Setting) (scope : List Local) : Node → Emit Stmt
  | .literal _ t => return .raw t
  | .interpolation _ e esc => do
      let (t, type) ← value scope e
      return .write (writeForm type) t (esc.getD .html)
  | .invocation _ name args =>
      match Builtin.find? name with
      | some b => builtinStmt scope b args
      | none => callStmt s scope name (argCodes s scope args)
  | .cond _ e body otherwise => do
      let (t, type) ← value scope e
      let yes ← nodeStmts s scope [] body
      let no ←
        match otherwise with
        | some nodes => do pure (some (← nodeStmts s scope [] nodes))
        | none => pure none
      return .branch (type == .content) t yes no
  | .loop _ e item index body => do
      let (t, _) ← value scope e
      let st ← get
      let entry := st.loops
      set { st with loops := entry + 1 }
      let itemId ← declare s item
      let mut inner : List Local := ⟨item, itemId, .value⟩ :: scope
      let mut indexId : Option Bytes := none
      if !index.isEmpty then
        let id ← declare s index
        inner := ⟨index, id, .value⟩ :: inner
        indexId := some id
      let stmts ← nodeStmts s inner [] body
      return .each entry t itemId indexId stmts

/-- The code of nodes one after the other; the text of literals not yet written comes along. -/
@[grind =] def nodeStmts (s : Setting) (scope : List Local) : Bytes → List Node → Emit (List Stmt)
  | pending, [] => return flushed pending []
  | pending, .literal _ t :: rest => nodeStmts s scope (pending ++ t) rest
  | pending, n :: rest => do
      let stmt ← nodeStmt s scope n
      let stmts ← nodeStmts s scope [] rest
      return flushed pending (stmt :: stmts)

/-- The code of the arguments of an invocation, to be emitted in the order of the parameters. -/
@[grind =] def argCodes (s : Setting) (scope : List Local) : List Arg → List (Bytes × ArgCode)
  | [] => []
  | .content _ name body :: as =>
      (name, fun _ => do return .block (← nodeStmts s scope [] body)) :: argCodes s scope as
  | .text _ name parts :: as =>
      (name, fun wanted => do
        let t ← quoted scope parts
        return if wanted == .content then .textContent t else t) :: argCodes s scope as
  | .expr _ name e :: as =>
      (name, fun wanted => do
        let (t, type) ← value scope e
        return handOver t type wanted) :: argCodes s scope as

end

/-! ## Files -/

/-- The function of a tag, after the expressions the file already has. -/
def function (s : Setting) (programs : List Bytes) (d : Definition) : Function × List Bytes :=
  let params := ((Signature.find? s.signatures d.name).map (·.params)).getD []
  let (f, st) := (do
    let locals ← params.mapM fun p => do
      return (⟨p.name, ← declare s p.name, p.type⟩ : Local)
    let body ← nodeStmts s locals [] d.body
    let renders := if d.isRoot then "the template " ++ d.template else "the " ++ d.name ++ " tag"
    return ⟨Name.exported d.name, renders, locals.map fun l => (l.id, l.type), body⟩ :
      Emit Function).run ⟨programs, [], 0⟩
  (f, st.programs)

def fileOf (s : Setting) (accepted : List Definition) (t : Template) : Option File :=
  let defs := accepted.filter fun d => d.template == t.path
  let inOrder := t.defs.filterMap fun d => defs.find? fun a => a.name == d.name && a.pos == d.pos
  if inOrder.isEmpty then none
  else
    let (functions, programs) := inOrder.foldl (fun (acc : List Function × List Bytes) d =>
      let (f, programs) := function s acc.2 d
      (acc.1 ++ [f], programs)) ([], [])
    some ⟨t.path, exprName t.path, programs, functions⟩

/-- The bindings of the parameters of a tag, after the expressions the registry already has. -/
def entry (s : Setting) (programs : List Bytes) (d : Definition) : Entry × List Bytes :=
  let params := ((Signature.find? s.signatures d.name).map (·.params)).getD []
  let (bindings, st) := (params.mapM fun p => do
    let id ← declare s p.name
    let default ← if p.required then pure (.constant .nil) else defaultTerm [] p
    return (⟨id, p, default⟩ : Binding) : Emit (List Binding)).run ⟨programs, [], 0⟩
  (⟨d.name, Name.exported d.name, bindings⟩, st.programs)

def registryOf (s : Setting) (defs : List Definition) : Registry :=
  let (entries, programs) := defs.foldl (fun (acc : List Entry × List Bytes) d =>
    let (e, programs) := entry s acc.2 d
    (acc.1 ++ [e], programs)) ([], [])
  ⟨programs, entries⟩

def emit (set : TagSet) (sigs : List Signature) : List File × Registry :=
  let s : Setting := ⟨sigs, set.defs.map fun d => Name.exported d.name⟩
  (set.templates.filterMap (fileOf s set.defs), registryOf s set.defs)

end TagLoom.Code

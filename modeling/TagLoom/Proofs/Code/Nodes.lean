import TagLoom.Proofs.Code.Arguments

/-!
# The code of nodes and functions

The renderer follows the code of every node, and so of every body, at every depth: by induction on
the depth for blocks and called tags, and on the nodes at one depth.  It follows the function of a
tag, whose parameters hold the arguments, whose body is the code of the nodes, and which returns the
error of the page.
-/

namespace TagLoom.Code

open Joint Value

variable {s : Setting}

/-! ## Built-in elements -/

def builtinTerm (scope : List Local) (args : List Arg) : Emit Term :=
  match Arg.find? args "value" with
  | some (.text _ _ parts) => quoted scope parts
  | some (.expr _ _ e) => (·.1) <$> value scope e
  | _ => pure (.constant .nil)

def builtinWrite (b : Builtin) (args : List Arg) (t : Term) : Stmt :=
  match b.write with
  | .raw => .write .value t .none
  | .markdown => .markdown t
  | .sanitized => .sanitized t (b.staticArg args "policy")

theorem builtinStmt_eq (scope : List Local) (b : Builtin) (args : List Arg) :
    builtinStmt scope b args = builtinTerm scope args >>= fun t => pure (builtinWrite b args t) := by
  unfold builtinStmt
  extract_lets jp
  have hjp : jp = fun t => pure (builtinWrite b args t) := by
    funext t
    simp only [jp, builtinWrite]
    cases b.write <;> rfl
  rw [hjp, builtinTerm]
  cases Arg.find? args "value" with
  | none => rfl
  | some a => cases a <;> rfl

theorem builtinTerm_adds (scope : List Local) (args : List Arg) : Adds (builtinTerm scope args) := by
  rw [builtinTerm]
  split
  · exact quoted_adds scope _
  · exact (value_adds scope _).map _
  · exact Adds.pure _

/-! ## Parameters of functions -/

def declareParam (s : Setting) (param : Param) : Emit Local := do
  return ⟨param.name, ← declare s param.name, param.type⟩

theorem declareParam_adds (s : Setting) (param : Param) : Adds (declareParam s param) :=
  (declare_adds s param.name).bind fun _ => Adds.pure _

variable [Language] {pkg : Package} {bundle : Bundle} {P : LeafSpec} {n : Nat}
  {scope : List Local} {programs : List Bytes} {locals : Env Closure} {types : Types}
  {env : Env (Joint pkg bundle n)}

/-! ## Output -/

def writeTyped (r : Rendering.Runner) (type : ParamType) (v : Value NodeBlock) (esc : Escape)
    (p : Page) : Option Page :=
  match type with
  | .content => p.writeContent r.block v.asContent
  | .text => some (p.writeText v.toText esc)
  | _ => p.writeValue r.block v esc

theorem writeTyped_follows {type : ParamType} {v : Value (Joint pkg bundle n)} (hv : Typed type v)
    (esc : Escape) :
    Follows (writeAs (pkg.runner n) (writeForm type) (toCode v) esc)
      (writeTyped (bundle.runner n) type (toNodes v) esc) := by
  cases type with
  | content =>
      have hcontent : (toNodes v).asContent = toNodes v := (asContent_expand _ v).trans (congrArg _ hv)
      have h := writeContent_follows (Nat.le_refl n) v
      intro p p' hp hx
      rw [writeTyped, hcontent]
      exact h p p' hp hx
  | text =>
      have htext : (toNodes v).toText = (toCode v).toText :=
        (toText_expand _ v).trans (toText_expand _ v).symm
      intro p p' hp hx
      rw [writeTyped, htext]
      exact follows_of_page (fun p => Page.raw_cancelled p _) p p' hp hx
  | unknown | value => exact writeValue_follows (Nat.le_refl n) v esc

theorem write_tracks [LawfulLanguage] {code : Term × ParamType} {e : Expression}
    (h : Computes programs locals types env e code) (esc : Escape) :
    Tracks (runStmt (pkg.runner n) programs locals (.write (writeForm code.2) code.1 esc))
      (Rendering.writeExpr (bundle.runner n) types (toNames env) e esc) := by
  have htracks := Tracks.afterTerm h.gives
    (x := fun v p => (writeAs (pkg.runner n) (writeForm code.2) v esc p).map fun p => (p, none))
    (y := fun v p => writeTyped (bundle.runner n) code.2 v esc p)
    fun v hv => (writeTyped_follows hv esc).tracks
  refine htracks.of_eq fun p => ?_
  rw [Rendering.writeExpr, h.type]
  rfl

theorem builtinTerm_yields [LawfulLanguage]
    (hexpr : ∀ e, P.expr e → Expression.ofSource e.source = .ok e)
    (hA : Agrees scope locals types env) {args : List Arg} (hargs : P.Args args) :
    Yields scope programs (builtinTerm scope args) fun t =>
      ∃ type, Passes n pkg bundle programs locals t type
        (Rendering.builtinValue types (toNames env) args) := by
  have hnil : Yields scope programs (pure (.constant .nil)) fun t =>
      ∃ type, Passes n pkg bundle programs locals t type fun p => (.nil, p) :=
    Yields.pure ⟨.value, fun p => ⟨.nil, p, trivial, rfl, rfl, rfl⟩⟩
  unfold builtinTerm Rendering.builtinValue
  cases hfind : Arg.find? args "value" with
  | none => exact hnil
  | some a =>
      have ha := LeafSpec.args_iff.1 hargs a (List.mem_of_find?_eq_some hfind)
      cases a with
      | text pos name parts =>
          refine Yields.weaken (quoted_yields hA fun pos e he => hexpr e (ha _ he)) fun t ht => ?_
          exact ⟨.text, Passes.ofText ht .text⟩
      | expr pos name e =>
          refine Yields.bind (value_adds scope e) (value_yields hA (hexpr e ha))
            (fun _ => Adds.pure _) fun code hcode => Yields.pure ⟨_, hcode.gives⟩
      | content pos name body => exact hnil

theorem builtinWrite_tracks {b : Builtin} {args : List Arg} {t : Term} {type : ParamType}
    (h : Passes n pkg bundle programs locals t type
      (Rendering.builtinValue types (toNames env) args)) :
    Tracks (runStmt (pkg.runner n) programs locals (builtinWrite b args t))
      (Rendering.writeBuiltin (bundle.runner n) types (toNames env) b args) := by
  unfold builtinWrite Rendering.writeBuiltin
  cases b.write with
  | raw =>
      exact Tracks.afterTerm h
        (x := fun v p => (writeAs (pkg.runner n) .value v .none p).map fun p => (p, none))
        (y := fun v p => p.writeValue (bundle.runner n).block v .none)
        fun v _ => (writeValue_follows (Nat.le_refl n) v .none).tracks
  | markdown =>
      refine Tracks.afterTerm h (x := fun v p => some (p.writeMarkdown v, none))
        (y := fun v p => some (p.writeMarkdown v)) fun v _ => ?_
      simp only [toCode, toNodes, Page.writeMarkdown_expand]
      exact (follows_of_page fun p => Page.writeMarkdown_cancelled p v).tracks
  | sanitized =>
      refine Tracks.afterTerm h
        (x := fun v p => some (p.writeSanitized v (b.staticArg args "policy"), none))
        (y := fun v p => some (p.writeSanitized v (b.staticArg args "policy"))) fun v _ => ?_
      simp only [toCode, toNodes, Page.writeSanitized_expand]
      exact (follows_of_page fun p => Page.writeSanitized_cancelled p v _).tracks

/-! ## Calls -/

/-- The renderer follows called functions at a depth. -/
def CallsTrack (pkg : Package) (bundle : Bundle) (n : Nat) : Prop :=
  ∀ (name : Bytes) (t : LoadedTag) (vs : List (Value (Joint pkg bundle n))),
    bundle.find? name = some t → List.Forall₂ (fun param v => Typed param.type v) t.params vs →
    Tracks ((pkg.runner n).function (Name.exported name) (vs.map toCode))
      ((bundle.runner n).tag name ((t.params.map (·.name)).zip (vs.map toNodes)))

theorem call_tracks (hcalls : CallsTrack pkg bundle n) {name : Bytes} {t : LoadedTag}
    {args : List Arg} {ts : List Term} (hbuiltin : Builtin.find? name = none)
    (ht : bundle.find? name = some t)
    (hts : PassesAll n pkg bundle programs locals ts t.params
      (Rendering.arguments types (toNames env) args t.params)) :
    Tracks (runStmt (pkg.runner n) programs locals (.call (Name.exported name) ts))
      (Rendering.invoke bundle (bundle.runner n) types (toNames env) name args) := by
  intro p p' e hp hx
  obtain ⟨vs, q, htyped, hcodes, hgiven, hq⟩ := hts p
  simp only [runStmt, hcodes] at hx
  simp only [Rendering.invoke, hbuiltin, ht, Option.map_some, Option.getD_some, hgiven]
  exact hcalls name t vs ht htyped q p' e (hq.trans hp) hx

/-! ## Branches -/

theorem testHolds_toCode {type : ParamType} {v : Value (Joint pkg bundle n)} (hv : Typed type v) :
    testHolds (type == .content) (toCode v) = Rendering.holds type (toNodes v) := by
  unfold testHolds Rendering.holds
  cases type with
  | content =>
      have hv : v.asContent = v := hv
      have hnodes : (toNodes v).asContent = toNodes v := (asContent_expand _ v).trans (congrArg _ hv)
      simp only [beq_self_eq_true, if_true, hnodes]
      cases v <;> simp only [toCode, toNodes, expand]
  | _ => exact (isTruthy_expand _ v).trans (isTruthy_expand _ v).symm

private theorem choice_tracks [LawfulLanguage] {code : Term × ParamType} {e : Expression}
    (h : Computes programs locals types env e code)
    {x₁ x₂ : Page → Option (Page × Option RenderError)} {y₁ y₂ : Page → Option Page}
    (hyes : Tracks x₁ y₁) (hno : Tracks x₂ y₂) :
    Tracks
      (fun p => if testHolds (code.2 == .content) (termValue programs locals code.1 p).1
        then x₁ (termValue programs locals code.1 p).2 else x₂ (termValue programs locals code.1 p).2)
      fun p => if Rendering.holds code.2 (Rendering.valueOf types (toNames env) e p).1
        then y₁ (Rendering.valueOf types (toNames env) e p).2
        else y₂ (Rendering.valueOf types (toNames env) e p).2 := by
  refine Tracks.afterTerm h.gives
    (x := fun v p => if testHolds (code.2 == .content) v then x₁ p else x₂ p)
    (y := fun v p => if Rendering.holds code.2 v then y₁ p else y₂ p) fun v hv => ?_
  rw [testHolds_toCode hv]
  cases Rendering.holds code.2 (toNodes v) with
  | true => exact hyes
  | false => exact hno

theorem cond_tracks [LawfulLanguage] {code : Term × ParamType} {e : Expression}
    (h : Computes programs locals types env e code) {yes : List Stmt} {body : List Node}
    (hyes : Tracks (runStmts (pkg.runner n) programs locals yes)
      (Rendering.renderNodes bundle (bundle.runner n) types (toNames env) [] body)) (pos : Pos) :
    Tracks (runStmt (pkg.runner n) programs locals (.branch (code.2 == .content) code.1 yes none))
      (Rendering.renderNode bundle (bundle.runner n) types (toNames env) (.cond pos e body none)) := by
  refine (choice_tracks h hyes
    (follows_of_page fun p => (rfl : p.cancelled = p.cancelled)).tracks).of_eq fun p => ?_
  rw [Rendering.renderNode, h.type]

theorem cond_else_tracks [LawfulLanguage] {code : Term × ParamType} {e : Expression}
    (h : Computes programs locals types env e code) {yes no : List Stmt} {body other : List Node}
    (hyes : Tracks (runStmts (pkg.runner n) programs locals yes)
      (Rendering.renderNodes bundle (bundle.runner n) types (toNames env) [] body))
    (hno : Tracks (runStmts (pkg.runner n) programs locals no)
      (Rendering.renderNodes bundle (bundle.runner n) types (toNames env) [] other)) (pos : Pos) :
    Tracks (runStmt (pkg.runner n) programs locals
        (.branch (code.2 == .content) code.1 yes (some no)))
      (Rendering.renderNode bundle (bundle.runner n) types (toNames env)
        (.cond pos e body (some other))) := by
  refine (choice_tracks h hyes hno).of_eq fun p => ?_
  rw [Rendering.renderNode, h.type]

/-! ## Loops -/

theorem Agrees.cons (hA : Agrees scope locals types env) {name id : Bytes} {type : ParamType}
    {v : Value (Joint pkg bundle n)} (hid : ∀ l ∈ scope, l.id ≠ id) (hv : Typed type v) :
    Agrees (⟨name, id, type⟩ :: scope) ((id, toCode v) :: locals) ((name, type) :: types)
      ((name, v) :: env) := by
  refine ⟨fun m l hl => ?_, fun m hm => ?_⟩
  · rw [lookup, List.find?_cons] at hl
    rw [Types.get?, Env.get?, List.find?_cons, List.find?_cons]
    cases hname : name == m with
    | true =>
        simp only [hname] at hl ⊢
        cases hl
        refine ⟨rfl, v, rfl, ?_, hv⟩
        simp [Env.get, Env.get?]
    | false =>
        simp only [hname] at hl ⊢
        obtain ⟨ht, w, hw, hget, htyped⟩ := hA.found m l hl
        refine ⟨ht, w, hw, ?_, htyped⟩
        have hne : (id == l.id) = false :=
          beq_eq_false_iff_ne.2 (hid l (List.mem_of_find?_eq_some hl)).symm
        rw [← hget]
        simp only [Env.get, Env.get?, List.find?_cons, hne]
  · rw [lookup, List.find?_cons] at hm
    rw [Types.get?, Env.get?, List.find?_cons, List.find?_cons]
    cases hname : name == m with
    | true => simp [hname] at hm
    | false =>
        simp only [hname] at hm ⊢
        exact hA.missing m hm

theorem toNames_cons (name : Bytes) (v : Value (Joint pkg bundle n)) :
    toNames ((name, v) :: env) = (name, toNodes v) :: toNames env := by
  rw [toNames, expandEntries]
  rfl

theorem loop_tracks [LawfulLanguage] {code : Term × ParamType} {e : Expression}
    (h : Computes programs locals types env e code) {item index itemId : Bytes}
    {indexId : Option Bytes} {stmts : List Stmt} {body : List Node}
    (hbody : ∀ k v : Value (Joint pkg bundle n),
      Tracks
        (runStmts (pkg.runner n) programs (bindEntry locals itemId indexId (toCode k, toCode v)) stmts)
        (Rendering.renderNodes bundle (bundle.runner n) (types.withLoop item index)
          (Rendering.bindRound (toNames env) item index (toNodes k, toNodes v)) [] body))
    (entry : Nat) (pos : Pos) :
    Tracks (runStmt (pkg.runner n) programs locals (.each entry code.1 itemId indexId stmts))
      (Rendering.renderNode bundle (bundle.runner n) types (toNames env)
        (.loop pos e item index body)) := by
  have hround : ∀ v : Value (Joint pkg bundle n), Typed code.2 v →
      Tracks
        (fun p => eachEntry (fun entry p =>
            runStmts (pkg.runner n) programs (bindEntry locals itemId indexId entry) stmts p)
          (p.entries (toCode v)).1 (p.entries (toCode v)).2)
        (fun p => Rendering.eachRound (fun entry p =>
            Rendering.renderNodes bundle (bundle.runner n) (types.withLoop item index)
              (Rendering.bindRound (toNames env) item index entry) [] body p)
          (p.entries (toNodes v)).1 (p.entries (toNodes v)).2) := by
    intro v _ p p' e hp hx
    simp only [toCode, toNodes, Page.entries_expand] at hx ⊢
    exact (Tracks.each (fun e => hbody e.1 e.2)
      (fun e => runStmts_idle (function_idle pkg n) programs _ stmts) (p.entries v).1).1
      (p.entries v).2 p' e ((Page.entries_cancelled p v).trans hp) hx
  have htracks := Tracks.afterTerm h.gives
    (x := fun v p => eachEntry (fun entry p =>
        runStmts (pkg.runner n) programs (bindEntry locals itemId indexId entry) stmts p)
      (p.entries v).1 (p.entries v).2)
    (y := fun v p => Rendering.eachRound (fun entry p =>
        Rendering.renderNodes bundle (bundle.runner n) (types.withLoop item index)
          (Rendering.bindRound (toNames env) item index entry) [] body p)
      (p.entries v).1 (p.entries v).2) hround
  exact htracks.of_eq fun p => by rw [Rendering.renderNode]

/-! ## Nodes -/

/-- What the nodes of a body need at a depth: checked templates, blocks that are followed below the
depth, and calls that are followed at it. -/
structure Level (pkg : Package) (bundle : Bundle) (s : Setting) (P : LeafSpec) (n : Nat) : Prop where
  expr : ∀ e, P.expr e → Expression.ofSource e.source = .ok e
  params : ∀ name t, bundle.find? name = some t →
    ((Signature.find? s.signatures name).map (·.params)).getD [] = t.params
  defaults : ∀ t ∈ bundle.tags, ∀ param ∈ t.params, ∀ e, param.default = some e → DefaultFits P e
  bodies : ∀ m < n, BodiesTrack pkg bundle s P m
  calls : CallsTrack pkg bundle n

theorem invocation_yields [LawfulLanguage] (hL : Level pkg bundle s P n) (d : Definition)
    (loops : List Bytes)
    (hA : Agrees scope locals types env) (hscope : ∀ l ∈ scope, P.name l.name) {pos : Pos}
    {name : Bytes} {args : List Arg} (hargs : P.Args args)
    (hcalls : CallsFit bundle (Inference.nodeCalls d loops (.invocation pos name args))) :
    Yields scope programs (nodeStmt s scope (.invocation pos name args)) fun stmt =>
      Tracks (runStmt (pkg.runner n) programs locals stmt)
        (Rendering.invoke bundle (bundle.runner n) types (toNames env) name args) := by
  rw [Inference.nodeCalls] at hcalls
  rw [nodeStmt]
  cases hbuiltin : Builtin.find? name with
  | some b =>
      simp only [builtinStmt_eq]
      refine Yields.bind (builtinTerm_adds scope args) (builtinTerm_yields hL.expr hA hargs)
        (fun _ => Adds.pure _)
        fun t ht => Yields.pure ?_
      obtain ⟨type, ht⟩ := ht
      refine (builtinWrite_tracks ht).of_eq fun p => ?_
      rw [Rendering.invoke, hbuiltin]
  | none =>
      obtain ⟨t, ht, hcall⟩ := hcalls _ List.mem_cons_self hbuiltin
      have hparams (param : Param) (hmem : param ∈ t.params) :
          Yields scope programs (paramTerm scope (argCodes s scope args) param) fun u =>
            Passes n pkg bundle programs locals u param.type
              (Rendering.argument types (toNames env) args param) :=
        paramTerm_yields hL.expr hL.bodies hA hscope d loops hargs
          (fun c hc => hcalls c (List.mem_cons_of_mem _ hc)) hcall hmem
          (hL.defaults t (List.mem_of_find?_eq_some ht) param hmem)
      have hadds := Adds.mapM fun (q : Param) (_ : q ∈ t.params) =>
        paramTerm_adds (s := s) scope args q
      have hstmt : callStmt s scope name (argCodes s scope args) = (do
          let ts ← t.params.mapM (paramTerm scope (argCodes s scope args))
          return .call (Name.exported name) ts) := by
        rw [← hL.params name t ht]
        rfl
      simp only [hstmt]
      exact Yields.bind hadds (arguments_yield hparams) (fun _ => Adds.pure _)
        fun ts hts => Yields.pure (call_tracks hL.calls hbuiltin ht hts)

/-- The renderer follows the code of a loop when it follows the code of the body wherever the body
stands. -/
theorem loop_yields [LawfulLanguage] (hA : Agrees scope locals types env)
    (hscope : ∀ l ∈ scope, P.name l.name)
    {e : Expression} (he : Expression.ofSource e.source = .ok e) {item index : Bytes}
    (hitem : P.name item) (hindex : index = [] ∨ P.name index) {body : List Node}
    (hbody : ∀ {scope : List Local} {locals : Env Closure} {types : Types}
      {env : Env (Joint pkg bundle n)}, Agrees scope locals types env →
      (∀ l ∈ scope, P.name l.name) →
      Yields scope programs (nodeStmts s scope [] body) fun stmts =>
        Tracks (runStmts (pkg.runner n) programs locals stmts)
          (Rendering.renderNodes bundle (bundle.runner n) types (toNames env) [] body)) (pos : Pos) :
    Yields scope programs (nodeStmt s scope (.loop pos e item index body)) fun stmt =>
      Tracks (runStmt (pkg.runner n) programs locals stmt)
        (Rendering.renderNode bundle (bundle.runner n) types (toNames env)
          (.loop pos e item index body)) := by
  cases hempty : index.isEmpty with
  | true =>
      rw [List.isEmpty_iff.1 hempty]
      rw [nodeStmt_loop_nil]
      refine Yields.bind (value_adds scope e) (value_yields hA he)
        (fun _ => nextLoop_adds.bind fun _ => (declare_adds s item).bind fun _ =>
          (nodeStmts_adds s _ [] body).bind fun _ => Adds.pure _) fun code hcode => ?_
      refine Yields.bind nextLoop_adds (P := fun _ => True) (fun _ _ _ => trivial)
        (fun _ => (declare_adds s item).bind fun _ =>
          (nodeStmts_adds s _ [] body).bind fun _ => Adds.pure _) fun entry _ => ?_
      refine Yields.declare_bind .value fun itemId hfresh => ?_
      have hinner : ∀ l ∈ (⟨item, itemId, .value⟩ :: scope : List Local), P.name l.name :=
        List.forall_mem_cons.2 ⟨hitem, hscope⟩
      have hround : Yields (⟨item, itemId, .value⟩ :: scope) programs
          (nodeStmts s (⟨item, itemId, .value⟩ :: scope) [] body) fun stmts =>
          ∀ k v : Value (Joint pkg bundle n), Tracks
            (runStmts (pkg.runner n) programs
              (bindEntry locals itemId none (toCode k, toCode v)) stmts)
            (Rendering.renderNodes bundle (bundle.runner n) (types.withLoop item [])
              (Rendering.bindRound (toNames env) item [] (toNodes k, toNodes v)) [] body) := by
        intro st hst hp k v
        have hAv : Agrees (⟨item, itemId, .value⟩ :: scope) ((itemId, toCode v) :: locals)
            ((item, .value) :: types) ((item, v) :: env) := hA.cons hfresh trivial
        have h := hbody hAv hinner st hst hp
        rw [toNames_cons] at h
        exact h
      exact Yields.bind (nodeStmts_adds s _ [] body) hround (fun _ => Adds.pure _)
        fun stmts hstmts => Yields.pure (loop_tracks hcode hstmts entry pos)
  | false =>
      have hname : P.name index := hindex.resolve_left fun h => by simp [h] at hempty
      rw [nodeStmt_loop_cons s scope pos e item hempty]
      refine Yields.bind (value_adds scope e) (value_yields hA he)
        (fun _ => nextLoop_adds.bind fun _ => (declare_adds s item).bind fun _ =>
          (declare_adds s index).bind fun _ =>
            (nodeStmts_adds s _ [] body).bind fun _ => Adds.pure _) fun code hcode => ?_
      refine Yields.bind nextLoop_adds (P := fun _ => True) (fun _ _ _ => trivial)
        (fun _ => (declare_adds s item).bind fun _ => (declare_adds s index).bind fun _ =>
          (nodeStmts_adds s _ [] body).bind fun _ => Adds.pure _) fun entry _ => ?_
      refine Yields.declare_bind .value fun itemId hfresh => ?_
      refine Yields.declare_bind .value fun indexId hfresh' => ?_
      have hinner : ∀ l ∈ (⟨index, indexId, .value⟩ :: ⟨item, itemId, .value⟩ :: scope :
          List Local), P.name l.name :=
        List.forall_mem_cons.2 ⟨hname, List.forall_mem_cons.2 ⟨hitem, hscope⟩⟩
      have hround : Yields (⟨index, indexId, .value⟩ :: ⟨item, itemId, .value⟩ :: scope) programs
          (nodeStmts s (⟨index, indexId, .value⟩ :: ⟨item, itemId, .value⟩ :: scope) [] body)
          fun stmts => ∀ k v : Value (Joint pkg bundle n), Tracks
            (runStmts (pkg.runner n) programs
              (bindEntry locals itemId (some indexId) (toCode k, toCode v)) stmts)
            (Rendering.renderNodes bundle (bundle.runner n) (types.withLoop item index)
              (Rendering.bindRound (toNames env) item index (toNodes k, toNodes v)) [] body) := by
        intro st hst hp k v
        have hAv : Agrees (⟨item, itemId, .value⟩ :: scope) ((itemId, toCode v) :: locals)
            ((item, .value) :: types) ((item, v) :: env) := hA.cons hfresh trivial
        have hAk : Agrees (⟨index, indexId, .value⟩ :: ⟨item, itemId, .value⟩ :: scope)
            ((indexId, toCode k) :: (itemId, toCode v) :: locals)
            ((index, .value) :: (item, .value) :: types) ((index, k) :: (item, v) :: env) :=
          hAv.cons hfresh' trivial
        have h := hbody hAk hinner st hst hp
        rw [toNames_cons, toNames_cons] at h
        simp only [Types.withLoop, Rendering.bindRound, hempty]
        exact h
      exact Yields.bind (nodeStmts_adds s _ [] body) hround (fun _ => Adds.pure _)
        fun stmts hstmts => Yields.pure (loop_tracks hcode hstmts entry pos)

/-- The code of a node that is no literal, and of the nodes after it. -/
theorem cons_yields {pending : Bytes} {node : Node} {rest : List Node}
    (hlit : ∀ pos t, node = .literal pos t → False)
    (hnode : Yields scope programs (nodeStmt s scope node) fun stmt =>
      Tracks (runStmt (pkg.runner n) programs locals stmt)
        (Rendering.renderNode bundle (bundle.runner n) types (toNames env) node))
    (hrest : Yields scope programs (nodeStmts s scope [] rest) fun stmts =>
      Tracks (runStmts (pkg.runner n) programs locals stmts)
        (Rendering.renderNodes bundle (bundle.runner n) types (toNames env) [] rest)) :
    Yields scope programs (nodeStmts s scope pending (node :: rest)) fun stmts =>
      Tracks (runStmts (pkg.runner n) programs locals stmts)
        (Rendering.renderNodes bundle (bundle.runner n) types (toNames env) pending (node :: rest)) := by
  rw [nodeStmts]
  · refine Yields.bind (nodeStmt_adds s scope node) hnode
      (fun _ => (nodeStmts_adds s scope [] rest).bind fun _ => Adds.pure _) fun stmt hstmt => ?_
    refine Yields.bind (nodeStmts_adds s scope [] rest) hrest (fun _ => Adds.pure _)
      fun stmts hstmts => Yields.pure ?_
    have hidle := function_idle pkg n
    have hcons : Tracks (runStmts (pkg.runner n) programs locals (stmt :: stmts)) _ :=
      hstmt.thenUnlessReturned hstmts (runStmts_idle hidle programs locals stmts)
    exact (hcons.flushed hidle pending).of_eq fun p =>
      (Rendering.renderNodes.eq_3 _ _ _ _ _ _ _ _ hlit).symm
  · exact hlit

mutual

theorem nodeStmt_yields [LawfulLanguage] (hL : Level pkg bundle s P n) {scope : List Local}
    {locals : Env Closure}
    {types : Types} {env : Env (Joint pkg bundle n)} (d : Definition) (loops : List Bytes)
    (hA : Agrees scope locals types env) (hscope : ∀ l ∈ scope, P.name l.name) (node : Node)
    (hnode : P.Node node) (hcalls : CallsFit bundle (Inference.nodeCalls d loops node)) :
    Yields scope programs (nodeStmt s scope node) fun stmt =>
      Tracks (runStmt (pkg.runner n) programs locals stmt)
        (Rendering.renderNode bundle (bundle.runner n) types (toNames env) node) := by
  cases node with
  | literal pos t =>
      rw [nodeStmt]
      exact Yields.pure ((follows_of_page fun p => Page.raw_cancelled p t).tracks.of_eq fun p => by
        rw [Rendering.renderNode])
  | interpolation pos e esc =>
      rw [nodeStmt]
      refine Yields.bind (value_adds scope e) (value_yields hA (hL.expr e hnode))
        (fun _ => Adds.pure _) fun code hcode => Yields.pure ?_
      exact (write_tracks hcode _).of_eq fun p => by rw [Rendering.renderNode]
  | invocation pos name args =>
      refine Yields.weaken (invocation_yields hL d loops hA hscope hnode hcalls) fun stmt h => ?_
      exact h.of_eq fun p => by rw [Rendering.renderNode]
  | cond pos e body otherwise =>
      cases otherwise with
      | none =>
          rw [Inference.nodeCalls] at hcalls
          rw [nodeStmt]
          refine Yields.bind (value_adds scope e) (value_yields hA (hL.expr e hnode.1))
            (fun _ => (nodeStmts_adds s scope [] body).bind fun _ => Adds.pure _) fun code hcode => ?_
          refine Yields.bind (nodeStmts_adds s scope [] body)
            (nodeStmts_yields hL d loops hA hscope [] body hnode.2 hcalls) (fun _ => Adds.pure _)
            fun yes hyes => ?_
          exact Yields.pure (cond_tracks hcode hyes pos)
      | some other =>
          rw [Inference.nodeCalls] at hcalls
          rw [nodeStmt]
          have hno := nodeStmts_adds s scope [] other
          refine Yields.bind (value_adds scope e) (value_yields hA (hL.expr e hnode.1))
            (fun _ => (nodeStmts_adds s scope [] body).bind fun _ =>
              (hno.bind fun _ => Adds.pure _).bind fun _ => Adds.pure _) fun code hcode => ?_
          refine Yields.bind (nodeStmts_adds s scope [] body)
            (nodeStmts_yields hL d loops hA hscope [] body hnode.2.1 fun c hc =>
              hcalls c (List.mem_append_left _ hc))
            (fun _ => (hno.bind fun _ => Adds.pure _).bind fun _ => Adds.pure _) fun yes hyes => ?_
          refine Yields.bind hno
            (nodeStmts_yields hL d loops hA hscope [] other hnode.2.2 fun c hc =>
              hcalls c (List.mem_append_right _ hc)) (fun _ => Adds.pure _) fun no hno => ?_
          exact Yields.pure (cond_else_tracks hcode hyes hno pos)
  | loop pos e item index body =>
      rw [Inference.nodeCalls] at hcalls
      obtain ⟨he, hitem, hindex, hbody⟩ := hnode
      exact loop_yields hA hscope (hL.expr e he) hitem hindex (fun hA' hscope' =>
        nodeStmts_yields hL d _ hA' hscope' [] body hbody hcalls) pos

theorem nodeStmts_yields [LawfulLanguage] (hL : Level pkg bundle s P n) {scope : List Local}
    {locals : Env Closure}
    {types : Types} {env : Env (Joint pkg bundle n)} (d : Definition) (loops : List Bytes)
    (hA : Agrees scope locals types env) (hscope : ∀ l ∈ scope, P.name l.name) (pending : Bytes)
    (nodes : List Node) (hnodes : P.Nodes nodes)
    (hcalls : CallsFit bundle (Inference.bodyCalls d loops nodes)) :
    Yields scope programs (nodeStmts s scope pending nodes) fun stmts =>
      Tracks (runStmts (pkg.runner n) programs locals stmts)
        (Rendering.renderNodes bundle (bundle.runner n) types (toNames env) pending nodes) := by
  cases nodes with
  | nil =>
      rw [nodeStmts]
      refine Yields.pure ?_
      have hnil : Tracks (runStmts (pkg.runner n) programs locals []) some :=
        (follows_of_page fun p => (rfl : p.cancelled = p.cancelled)).tracks
      refine (hnil.flushed (function_idle pkg n) pending).of_eq fun p => ?_
      rw [Rendering.renderNodes, ite_self]
  | cons node rest =>
      have hrest := nodeStmts_yields hL d loops hA hscope [] rest hnodes.2 fun c hc =>
        hcalls c (List.mem_append_right _ hc)
      have hhead : CallsFit bundle (Inference.nodeCalls d loops node) := fun c hc =>
        hcalls c (List.mem_append_left _ hc)
      cases node with
      | literal pos t =>
          rw [nodeStmts]
          refine Yields.weaken (nodeStmts_yields hL d loops hA hscope (pending ++ t) rest hnodes.2
            fun c hc => hcalls c (List.mem_append_right _ hc)) fun stmts h => ?_
          exact h.of_eq fun p => by rw [Rendering.renderNodes]
      | _ => exact cons_yields (by simp) (nodeStmt_yields hL d loops hA hscope _ hnodes.1 hhead) hrest

end

/-! ## Arguments of functions -/

def tagCode (s : Setting) (params : List Param) (body : List Node) :
    Emit (List Local × List Stmt) := do
  let scope ← params.mapM (declareParam s)
  let stmts ← nodeStmts s scope [] body
  return (scope, stmts)

/-- A function that was emitted for a tag, in a file with these prepared expressions. -/
def EmittedFor (s : Setting) (programs : List Bytes) (t : LoadedTag) (f : Function) : Prop :=
  ∃ st : EmitState,
    f.params = ((tagCode s t.params t.body).run st).1.1.map (fun l => (l.id, l.type)) ∧
    f.body = ((tagCode s t.params t.body).run st).1.2 ∧
    ((tagCode s t.params t.body).run st).2.programs <+: programs

/-- A package and a bundle of one pass, and what the stages before found about it. -/
structure Linked (pkg : Package) (bundle : Bundle) (s : Setting) (P : LeafSpec) : Prop where
  expr : ∀ e, P.expr e → Expression.ofSource e.source = .ok e
  params : ∀ name t, bundle.find? name = some t →
    ((Signature.find? s.signatures name).map (·.params)).getD [] = t.params
  defaults : ∀ t ∈ bundle.tags, ∀ param ∈ t.params, ∀ e, param.default = some e → DefaultFits P e
  names : ∀ t ∈ bundle.tags, ∀ param ∈ t.params, P.name param.name
  nodes : ∀ t ∈ bundle.tags, P.Nodes t.body
  calls : ∀ t ∈ bundle.tags, ∃ d, CallsFit bundle (Inference.bodyCalls d [] t.body)
  functions : ∀ name t, bundle.find? name = some t → ∃ programs f,
    pkg.function? (Name.exported name) = some (programs, f) ∧ EmittedFor s programs t f

end TagLoom.Code

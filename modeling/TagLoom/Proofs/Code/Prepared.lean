import TagLoom.Proofs.Code.Nodes

/-!
# Prepared expressions

The code emitted for nodes prepares every expression that the renderer prepares for them.
-/

namespace TagLoom.Code

open Inference (CallSite nodeCalls bodyCalls argCalls)

variable {programs : List Bytes}

/-! ## What emission prepares -/

structure Prepared (programs : List Bytes) (e : Expression) : Prop where
  read : Expression.ofSource e.source = .ok e
  mem : e.source ∈ programs

def Prepares {α : Type} (programs : List Bytes) (x : Emit α) (es : List Expression) : Prop :=
  Yields [] programs x fun _ => ∀ e ∈ es, Prepared programs e

section

variable {α β : Type}

theorem Prepares.none (x : Emit α) : Prepares programs x [] := fun _ _ _ _ he => (nomatch he)

theorem Prepares.bind {x : Emit α} {k : α → Emit β} {es fs : List Expression} (hx : Adds x)
    (hk : ∀ a, Adds (k a)) (hes : Prepares programs x es) (hfs : ∀ a, Prepares programs (k a) fs) :
    Prepares programs (x >>= k) (es ++ fs) :=
  Yields.bind hx hes hk fun a ha =>
    Yields.weaken (hfs a) fun _ hb => List.forall_mem_append.2 ⟨ha, hb⟩

theorem Prepares.then_pure {x : Emit α} {k : α → β} {es : List Expression} (hx : Adds x)
    (hes : Prepares programs x es) : Prepares programs (x >>= fun a => pure (k a)) es :=
  Yields.bind hx hes (fun _ => Adds.pure _) fun _ ha => Yields.pure ha

theorem Prepares.after {x : Emit α} {k : α → Emit β} {es : List Expression} (hx : Adds x)
    (hk : ∀ a, Adds (k a)) (hes : ∀ a, Prepares programs (k a) es) :
    Prepares programs (x >>= k) es :=
  Prepares.bind hx hk (Prepares.none x) hes

theorem Prepares.mapM {f : α → Emit β} {es : α → List Expression} {xs : List α}
    (hadds : ∀ x ∈ xs, Adds (f x)) (hf : ∀ x ∈ xs, Prepares programs (f x) (es x)) :
    Prepares programs (xs.mapM f) (xs.flatMap es) := by
  induction xs with
  | nil => exact Prepares.none _
  | cons x xs ih =>
      have hrest := Adds.mapM fun y (hy : y ∈ xs) => hadds y (List.mem_cons_of_mem _ hy)
      rw [List.mapM_cons, List.flatMap_cons]
      refine Prepares.bind (hadds x List.mem_cons_self) (fun _ => hrest.bind fun _ => Adds.pure _)
        (hf x List.mem_cons_self) fun y => ?_
      exact Prepares.then_pure hrest
        (ih (fun y hy => hadds y (List.mem_cons_of_mem _ hy)) fun y hy =>
          hf y (List.mem_cons_of_mem _ hy))

end

def Knows (scope : List Local) (types : Types) : Prop :=
  ∀ name, (lookup scope name).isSome = (types.get? name).isSome

section

variable {scope : List Local} {types : Types}

theorem Knows.cons (h : Knows scope types) (name id : Bytes) (type type' : ParamType) :
    Knows (⟨name, id, type⟩ :: scope) ((name, type') :: types) := by
  intro n
  have hn := h n
  rw [lookup, Types.get?, Option.isSome_map] at hn
  rw [lookup, Types.get?, Option.isSome_map, List.find?_cons, List.find?_cons]
  cases name == n with
  | true => rfl
  | false => exact hn

/-! ## Values -/

theorem value_prepares (h : Knows scope types) {e : Expression}
    (he : Expression.ofSource e.source = .ok e) :
    Prepares programs (value scope e) (Loading.evaluated types e) := by
  rw [Loading.evaluated, ← h]
  unfold value
  cases hlocal : (if e.isBare then lookup scope e.source else none) with
  | some l =>
      have hbare : (e.isBare && (lookup scope e.source).isSome) = true := by
        cases hb : e.isBare with
        | false => simp [hb] at hlocal
        | true =>
            simp only [hb, if_true] at hlocal
            simp [hlocal]
      rw [hbare]
      exact Prepares.none _
  | none =>
      have hfree : (e.isBare && (lookup scope e.source).isSome) = false := by
        cases hb : e.isBare with
        | false => rfl
        | true =>
            simp only [hb, if_true] at hlocal
            simp [hlocal]
      rw [hfree]
      cases hl : e.literal? with
      | some l => exact Prepares.none _
      | none =>
          refine Yields.bind (program_adds _) (yields_program e.source) (fun _ => Adds.pure _)
            fun i hi => Yields.pure ?_
          intro e' he'
          rw [show e' = e by simpa using he']
          exact ⟨he, List.mem_of_getElem? hi⟩

variable {P : LeafSpec}

theorem part_prepares (hexpr : ∀ e, P.expr e → Expression.ofSource e.source = .ok e)
    (h : Knows scope types) {part : Part} (hpart : P.Part part) :
    Prepares programs (partTerm scope part) (Loading.inParts types [part]) := by
  cases part with
  | literal pos s => exact Prepares.none _
  | interpolation pos e =>
      rw [show Loading.inParts types [.interpolation pos e] = Loading.evaluated types e from
        List.append_nil _]
      exact Prepares.then_pure (value_adds scope e) (value_prepares h (hexpr e hpart))

theorem quoted_prepares (hexpr : ∀ e, P.expr e → Expression.ofSource e.source = .ok e)
    (h : Knows scope types) {parts : List Part} (hparts : ∀ part ∈ parts, P.Part part) :
    Prepares programs (quoted scope parts) (Loading.inParts types parts) := by
  have hsplit : Loading.inParts types parts =
      parts.flatMap fun part => Loading.inParts types [part] := by
    simp only [Loading.inParts, List.flatMap_cons, List.flatMap_nil, List.append_nil]
  rw [hsplit, ← List.append_nil (parts.flatMap _)]
  refine Prepares.bind (Adds.mapM fun part _ => partTerm_adds scope part) (fun ts => ?_)
    (Prepares.mapM (fun part _ => partTerm_adds scope part) fun part hmem =>
      part_prepares hexpr h (hparts part hmem)) fun ts => Prepares.none _
  split <;> exact Adds.pure _

theorem defaultTerm_prepares (h : Knows scope types) {param : Param} {e : Expression}
    (hdefault : param.default = some e) (he : Expression.ofSource e.source = .ok e)
    (hfree : e.isBare → types.get? e.source = none) :
    Prepares programs (defaultTerm scope param) (Loading.evaluated [] e) := by
  have hnil : Loading.evaluated [] e = Loading.evaluated types e := by
    rw [Loading.evaluated, Loading.evaluated, show (Types.get? [] e.source).isSome = false from rfl]
    cases hb : e.isBare with
    | false => rfl
    | true => rw [hfree hb]; rfl
  rw [defaultTerm, hdefault, hnil, ← List.append_nil (Loading.evaluated types e)]
  refine Prepares.bind (value_adds scope e) (fun v => ?_) (value_prepares h he)
    fun v => Prepares.none _
  obtain ⟨t, type⟩ := v
  cases param.type <;> exact Adds.pure _

/-! ## Calls -/

variable {bundle : Bundle} {s : Setting}

/-- A call of a built-in element that is handed no block, or of a tag whose parameters are known. -/
structure Resolved (s : Setting) (bundle : Bundle) (c : CallSite) : Prop where
  builtin : ∀ b, Builtin.find? c.name = some b →
    Name.isBuiltin c.name = true ∧ ∀ a ∈ c.args, Inference.Arg.isContent a = false
  tag : Builtin.find? c.name = none → Name.isBuiltin c.name = false ∧
    ∃ t, bundle.find? c.name = some t ∧
      ((Signature.find? s.signatures c.name).map (·.params)).getD [] = t.params

theorem paramTerm_prepares (h : Knows scope types) (hscope : ∀ l ∈ scope, P.name l.name)
    {codes : List (Bytes × ArgCode)} {found : List (Bytes × List Expression)} {param : Param}
    (hcodes : (argFor codes param.name = none ∧ Loading.firstOf found param.name = none) ∨
      ∃ code es, argFor codes param.name = some code ∧ Loading.firstOf found param.name = some es ∧
        ∀ wanted, Prepares programs (code wanted) es)
    (hdefault : ∀ e, param.default = some e → DefaultFits P e) :
    Prepares programs (paramTerm scope codes param)
      (match Loading.firstOf found param.name, param.default with
        | some es, _ => es
        | none, some e => Loading.evaluated [] e
        | none, none => []) := by
  rw [paramTerm]
  rcases hcodes with ⟨hcode, hfound⟩ | ⟨code, es, hcode, hfound, hes⟩
  · rw [hcode, hfound]
    cases he : param.default with
    | none => exact Prepares.none _
    | some e =>
        have hfree : e.isBare → types.get? e.source = none := by
          intro hb
          rw [← Option.isNone_iff_eq_none, ← Option.not_isSome, ← h, Option.not_isSome,
            Option.isNone_iff_eq_none]
          refine List.find?_eq_none.2 fun l hl hname => ?_
          exact (hdefault e he).bare hb (beq_iff_eq.1 hname ▸ hscope l hl)
        exact defaultTerm_prepares h he (hdefault e he).read hfree
  · rw [hcode, hfound]
    exact hes param.type

theorem callStmt_prepares (h : Knows scope types) (hscope : ∀ l ∈ scope, P.name l.name)
    (args : List Arg) {found : List (Bytes × List Expression)}
    (hcodes : ∀ name, (argFor (argCodes s scope args) name = none ∧ Loading.firstOf found name = none) ∨
      ∃ code es, argFor (argCodes s scope args) name = some code ∧
        Loading.firstOf found name = some es ∧ ∀ wanted, Prepares programs (code wanted) es)
    {name : Bytes} {t : LoadedTag}
    (hparams : ((Signature.find? s.signatures name).map (·.params)).getD [] = t.params)
    (hdefaults : ∀ param ∈ t.params, ∀ e, param.default = some e → DefaultFits P e) :
    Prepares programs (callStmt s scope name (argCodes s scope args))
      (t.params.flatMap fun param =>
        match Loading.firstOf found param.name, param.default with
        | some es, _ => es
        | none, some e => Loading.evaluated [] e
        | none, none => []) := by
  have hstmt : callStmt s scope name (argCodes s scope args) = (do
      let ts ← t.params.mapM (paramTerm scope (argCodes s scope args))
      return .call (Name.exported name) ts) := by
    rw [← hparams]
    rfl
  rw [hstmt]
  refine Prepares.then_pure (Adds.mapM fun param _ => paramTerm_adds scope args param) ?_
  exact Prepares.mapM (fun param _ => paramTerm_adds scope args param) fun param hparam =>
    paramTerm_prepares h hscope (hcodes param.name) (hdefaults param hparam)

private theorem first_prepares {name arg : Bytes} {code : ArgCode} {es : List Expression}
    {codes : List (Bytes × ArgCode)} {found : List (Bytes × List Expression)}
    (hes : ∀ wanted, Prepares programs (code wanted) es)
    (hrest : (argFor codes name = none ∧ Loading.firstOf found name = none) ∨
      ∃ code es, argFor codes name = some code ∧ Loading.firstOf found name = some es ∧
        ∀ wanted, Prepares programs (code wanted) es) :
    (argFor ((arg, code) :: codes) name = none ∧ Loading.firstOf ((arg, es) :: found) name = none) ∨
      ∃ code' es', argFor ((arg, code) :: codes) name = some code' ∧
        Loading.firstOf ((arg, es) :: found) name = some es' ∧
        ∀ wanted, Prepares programs (code' wanted) es' := by
  rw [argFor, Loading.firstOf] at hrest ⊢
  rw [List.find?_cons, List.find?_cons]
  cases arg == name with
  | true => exact .inr ⟨code, es, rfl, rfl, hes⟩
  | false => exact hrest

private theorem value_inArgs {args : List Arg}
    (hargs : ∀ a ∈ args, Inference.Arg.isContent a = false) :
    (Loading.firstOf (Loading.inArgs bundle types args) "value").getD [] =
      match Arg.find? args "value" with
      | some (.text _ _ parts) => Loading.inParts types parts
      | some (.expr _ _ e) => Loading.evaluated types e
      | _ => [] := by
  induction args with
  | nil => rfl
  | cons a args ih =>
      have hrest := ih fun c hc => hargs c (List.mem_cons_of_mem _ hc)
      rw [Loading.firstOf, Arg.find?] at hrest ⊢
      cases a with
      | text pos name parts =>
          rw [Loading.inArgs, List.find?_cons, List.find?_cons]
          cases hname : (Arg.text pos name parts).name == Bytes.ofString "value" with
          | true => rw [show (name == Bytes.ofString "value") = true from hname]; rfl
          | false => rw [show (name == Bytes.ofString "value") = false from hname]; exact hrest
      | expr pos name e =>
          rw [Loading.inArgs, List.find?_cons, List.find?_cons]
          cases hname : (Arg.expr pos name e).name == Bytes.ofString "value" with
          | true => rw [show (name == Bytes.ofString "value") = true from hname]; rfl
          | false => rw [show (name == Bytes.ofString "value") = false from hname]; exact hrest
      | content pos name body =>
          exact absurd (hargs _ List.mem_cons_self) (by simp [Inference.Arg.isContent])

theorem builtinStmt_prepares (hexpr : ∀ e, P.expr e → Expression.ofSource e.source = .ok e)
    (h : Knows scope types) (b : Builtin) {args : List Arg} (hleaves : P.Args args)
    (hargs : ∀ a ∈ args, Inference.Arg.isContent a = false) :
    Prepares programs (builtinStmt scope b args)
      ((Loading.firstOf (Loading.inArgs bundle types args) "value").getD []) := by
  rw [value_inArgs hargs, builtinStmt_eq]
  refine Prepares.then_pure (builtinTerm_adds scope args) ?_
  unfold builtinTerm
  cases hfind : Arg.find? args "value" with
  | none => exact Prepares.none _
  | some a =>
      have ha := LeafSpec.args_iff.1 hleaves a (List.mem_of_find?_eq_some hfind)
      cases a with
      | text pos name parts => exact quoted_prepares hexpr h ha
      | expr pos name e =>
          exact Prepares.then_pure (value_adds scope e) (value_prepares h (hexpr e ha))
      | content pos name body => exact Prepares.none _

/-! ## Nodes -/

section Nodes

variable {pos : Pos} {e : Expression} {item index : Bytes} {body other : List Node}
  {es yes no : List Expression}

theorem if_prepares (hvalue : Prepares programs (value scope e) es)
    (hyes : Prepares programs (nodeStmts s scope [] body) yes) :
    Prepares programs (nodeStmt s scope (.cond pos e body none)) (es ++ yes) := by
  rw [nodeStmt]
  exact Prepares.bind (value_adds scope e)
    (fun _ => (nodeStmts_adds s scope [] body).bind fun _ => Adds.pure _) hvalue fun _ =>
      Prepares.then_pure (nodeStmts_adds s scope [] body) hyes

theorem ifElse_prepares (hvalue : Prepares programs (value scope e) es)
    (hyes : Prepares programs (nodeStmts s scope [] body) yes)
    (hno : Prepares programs (nodeStmts s scope [] other) no) :
    Prepares programs (nodeStmt s scope (.cond pos e body (some other))) (es ++ (yes ++ no)) := by
  have hadds := nodeStmts_adds s scope [] other
  rw [nodeStmt]
  refine Prepares.bind (value_adds scope e)
    (fun _ => (nodeStmts_adds s scope [] body).bind fun _ =>
      (hadds.bind fun _ => Adds.pure _).bind fun _ => Adds.pure _) hvalue fun _ => ?_
  exact Prepares.bind (nodeStmts_adds s scope [] body)
    (fun _ => (hadds.bind fun _ => Adds.pure _).bind fun _ => Adds.pure _) hyes fun _ =>
      Prepares.then_pure hadds hno

theorem loopItem_prepares (h : Knows scope types) (hscope : ∀ l ∈ scope, P.name l.name)
    (hitem : P.name item) (hvalue : Prepares programs (value scope e) es)
    (hbody : ∀ scope types, Knows scope types → (∀ l ∈ scope, P.name l.name) →
      Prepares programs (nodeStmts s scope [] body) (Loading.inNodes bundle types body)) :
    Prepares programs (nodeStmt s scope (.loop pos e item [] body))
      (es ++ Loading.inNodes bundle (types.withLoop item []) body) := by
  rw [nodeStmt_loop_nil]
  refine Prepares.bind (value_adds scope e) (fun _ => nextLoop_adds.bind fun _ =>
    (declare_adds s item).bind fun _ => (nodeStmts_adds s _ [] body).bind fun _ => Adds.pure _)
    hvalue fun _ => ?_
  refine Prepares.after nextLoop_adds (fun _ => (declare_adds s item).bind fun _ =>
    (nodeStmts_adds s _ [] body).bind fun _ => Adds.pure _) fun _ => ?_
  refine Prepares.after (declare_adds s item) (fun _ =>
    (nodeStmts_adds s _ [] body).bind fun _ => Adds.pure _) fun itemId => ?_
  exact Prepares.then_pure (nodeStmts_adds s _ [] body)
    (hbody _ _ (h.cons item itemId .value .value) (List.forall_mem_cons.2 ⟨hitem, hscope⟩))

/-- The body of a loop, with the variables of its item and its index in scope. -/
theorem loopIndex_prepares (h : Knows scope types) (hscope : ∀ l ∈ scope, P.name l.name)
    (hitem : P.name item) (hempty : index.isEmpty = false) (hindex : P.name index)
    (hvalue : Prepares programs (value scope e) es)
    (hbody : ∀ scope types, Knows scope types → (∀ l ∈ scope, P.name l.name) →
      Prepares programs (nodeStmts s scope [] body) (Loading.inNodes bundle types body)) :
    Prepares programs (nodeStmt s scope (.loop pos e item index body))
      (es ++ Loading.inNodes bundle (types.withLoop item index) body) := by
  have htypes : types.withLoop item index = (index, .value) :: (item, .value) :: types := by
    simp [Types.withLoop, hempty]
  rw [nodeStmt_loop_cons s scope pos e item hempty, htypes]
  refine Prepares.bind (value_adds scope e) (fun _ => nextLoop_adds.bind fun _ =>
    (declare_adds s item).bind fun _ => (declare_adds s index).bind fun _ =>
      (nodeStmts_adds s _ [] body).bind fun _ => Adds.pure _) hvalue fun _ => ?_
  refine Prepares.after nextLoop_adds (fun _ => (declare_adds s item).bind fun _ =>
    (declare_adds s index).bind fun _ => (nodeStmts_adds s _ [] body).bind fun _ =>
      Adds.pure _) fun _ => ?_
  refine Prepares.after (declare_adds s item) (fun _ => (declare_adds s index).bind fun _ =>
    (nodeStmts_adds s _ [] body).bind fun _ => Adds.pure _) fun itemId => ?_
  refine Prepares.after (declare_adds s index) (fun _ =>
    (nodeStmts_adds s _ [] body).bind fun _ => Adds.pure _) fun indexId => ?_
  exact Prepares.then_pure (nodeStmts_adds s _ [] body)
    (hbody _ _ ((h.cons item itemId .value .value).cons index indexId .value .value)
      (List.forall_mem_cons.2 ⟨hindex, List.forall_mem_cons.2 ⟨hitem, hscope⟩⟩))

end Nodes

mutual

theorem nodeStmt_prepares (hexpr : ∀ e, P.expr e → Expression.ofSource e.source = .ok e)
    (hdefaults : ∀ t ∈ bundle.tags, ∀ param ∈ t.params, ∀ e, param.default = some e →
      DefaultFits P e) {scope : List Local} {types : Types}
    (h : Knows scope types) (hscope : ∀ l ∈ scope, P.name l.name) (d : Definition)
    (loops : List Bytes) (node : Node) (hnode : P.Node node)
    (hcalls : ∀ c ∈ nodeCalls d loops node, Resolved s bundle c) :
    Prepares programs (nodeStmt s scope node) (Loading.inNode bundle types node) := by
  cases node with
  | literal pos t => exact Prepares.none _
  | interpolation pos e esc =>
      rw [nodeStmt, Loading.inNode]
      exact Prepares.then_pure (value_adds scope e) (value_prepares h (hexpr e hnode))
  | invocation pos name args =>
      rw [nodeCalls] at hcalls
      have hcall := hcalls _ List.mem_cons_self
      have hcodes := argCodes_prepares hexpr hdefaults h hscope d loops args hnode fun c hc =>
        hcalls c (List.mem_cons_of_mem _ hc)
      rw [nodeStmt, Loading.inNode]
      cases hbuiltin : Builtin.find? name with
      | some b =>
          obtain ⟨hname, hargs⟩ := hcall.builtin b hbuiltin
          simp only [hname, if_true]
          exact builtinStmt_prepares hexpr h b hnode hargs
      | none =>
          obtain ⟨hname, t, ht, hparams⟩ := hcall.tag hbuiltin
          have ht' : bundle.find? name = some t := ht
          simp only [hname, ht', Bool.false_eq_true, if_false, Option.map_some, Option.getD_some]
          exact callStmt_prepares h hscope args hcodes hparams
            (hdefaults t (List.mem_of_find?_eq_some ht))
  | cond pos e body otherwise =>
      cases otherwise with
      | none =>
          rw [nodeCalls] at hcalls
          rw [Loading.inNode, List.append_nil]
          exact if_prepares (value_prepares h (hexpr e hnode.1))
            (nodeStmts_prepares hexpr hdefaults h hscope d loops [] body hnode.2 hcalls)
      | some other =>
          rw [nodeCalls] at hcalls
          rw [Loading.inNode, List.append_assoc]
          exact ifElse_prepares (value_prepares h (hexpr e hnode.1))
            (nodeStmts_prepares hexpr hdefaults h hscope d loops [] body hnode.2.1 fun c hc =>
              hcalls c (List.mem_append_left _ hc))
            (nodeStmts_prepares hexpr hdefaults h hscope d loops [] other hnode.2.2 fun c hc =>
              hcalls c (List.mem_append_right _ hc))
  | loop pos e item index body =>
      obtain ⟨he, hitem, hindex, hbody⟩ := hnode
      rw [nodeCalls] at hcalls
      have hinside (scope : List Local) (types : Types) (h : Knows scope types)
          (hscope : ∀ l ∈ scope, P.name l.name) :=
        nodeStmts_prepares hexpr hdefaults h hscope d _ [] body hbody hcalls
      rw [Loading.inNode]
      cases hempty : index.isEmpty with
      | true =>
          rw [List.isEmpty_iff.1 hempty]
          exact loopItem_prepares h hscope hitem (value_prepares h (hexpr e he)) hinside
      | false =>
          have hname : P.name index := hindex.resolve_left fun h => by simp [h] at hempty
          exact loopIndex_prepares h hscope hitem hempty hname (value_prepares h (hexpr e he))
            hinside

theorem nodeStmts_prepares (hexpr : ∀ e, P.expr e → Expression.ofSource e.source = .ok e)
    (hdefaults : ∀ t ∈ bundle.tags, ∀ param ∈ t.params, ∀ e, param.default = some e →
      DefaultFits P e) {scope : List Local} {types : Types}
    (h : Knows scope types) (hscope : ∀ l ∈ scope, P.name l.name) (d : Definition)
    (loops : List Bytes) (pending : Bytes) (nodes : List Node) (hnodes : P.Nodes nodes)
    (hcalls : ∀ c ∈ bodyCalls d loops nodes, Resolved s bundle c) :
    Prepares programs (nodeStmts s scope pending nodes) (Loading.inNodes bundle types nodes) := by
  cases nodes with
  | nil => exact Prepares.none _
  | cons node rest =>
      have hrest := nodeStmts_prepares hexpr hdefaults h hscope d loops [] rest hnodes.2 fun c hc =>
        hcalls c (List.mem_append_right _ hc)
      have hhead := nodeStmt_prepares hexpr hdefaults h hscope d loops node hnodes.1 fun c hc =>
        hcalls c (List.mem_append_left _ hc)
      rw [Loading.inNodes]
      cases node with
      | literal pos t =>
          rw [nodeStmts, Loading.inNode, List.nil_append]
          exact nodeStmts_prepares hexpr hdefaults h hscope d loops (pending ++ t) rest hnodes.2
            fun c hc => hcalls c (List.mem_append_right _ hc)
      | _ =>
          rw [nodeStmts]
          · exact Prepares.bind (nodeStmt_adds s scope _)
              (fun _ => (nodeStmts_adds s scope [] rest).bind fun _ => Adds.pure _) hhead
              fun stmt => Prepares.then_pure (nodeStmts_adds s scope [] rest) hrest
          · simp

theorem argCodes_prepares (hexpr : ∀ e, P.expr e → Expression.ofSource e.source = .ok e)
    (hdefaults : ∀ t ∈ bundle.tags, ∀ param ∈ t.params, ∀ e, param.default = some e →
      DefaultFits P e) {scope : List Local} {types : Types}
    (h : Knows scope types) (hscope : ∀ l ∈ scope, P.name l.name) (d : Definition)
    (loops : List Bytes) (args : List Arg) (hargs : P.Args args)
    (hcalls : ∀ c ∈ argCalls d loops args, Resolved s bundle c) (name : Bytes) :
    (argFor (argCodes s scope args) name = none ∧
        Loading.firstOf (Loading.inArgs bundle types args) name = none) ∨
      ∃ code es, argFor (argCodes s scope args) name = some code ∧
        Loading.firstOf (Loading.inArgs bundle types args) name = some es ∧
        ∀ wanted, Prepares programs (code wanted) es := by
  cases args with
  | nil => exact .inl ⟨by rw [argCodes]; rfl, by rw [Loading.inArgs]; rfl⟩
  | cons a args =>
      cases a with
      | text pos arg parts =>
          have hrest := argCodes_prepares hexpr hdefaults h hscope d loops args hargs.2 hcalls name
          rw [argCodes, Loading.inArgs]
          exact first_prepares (fun wanted =>
            Prepares.then_pure (quoted_adds scope parts) (quoted_prepares hexpr h hargs.1)) hrest
      | expr pos arg e =>
          have hrest := argCodes_prepares hexpr hdefaults h hscope d loops args hargs.2 hcalls name
          rw [argCodes, Loading.inArgs]
          exact first_prepares (fun wanted =>
            Prepares.then_pure (value_adds scope e) (value_prepares h (hexpr e hargs.1))) hrest
      | content pos arg body =>
          rw [argCalls] at hcalls
          have hrest := argCodes_prepares hexpr hdefaults h hscope d loops args hargs.2 (fun c hc =>
            hcalls c (List.mem_append_right _ hc)) name
          rw [argCodes, Loading.inArgs]
          exact first_prepares (fun wanted =>
            Prepares.then_pure (nodeStmts_adds s scope [] body)
              (nodeStmts_prepares hexpr hdefaults h hscope d loops [] body hargs.1 fun c hc =>
                hcalls c (List.mem_append_left _ hc))) hrest

end

end

end TagLoom.Code

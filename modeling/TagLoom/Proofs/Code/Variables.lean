import TagLoom.Code.Print
import TagLoom.Proofs.Code.Declared

/-!
# Variables of generated functions

Every variable of a function is declared once: emission takes them one after the other and none that
is in use.  A name that may not be used as it is gets underscores at its end, and no name ends in an
underscore that the language or the package has for something else.
-/

namespace TagLoom

namespace Code

/-! ## The variables that code declares -/

mutual

def Term.variables : Term → List Bytes
  | .name _ | .text _ | .constant _ | .eval _ _ => []
  | .toText t | .textContent t | .asContent t => t.variables
  | .concat parts => variablesOfTerms parts
  | .block body => variablesOfStmts body

def variablesOfTerms : List Term → List Bytes
  | [] => []
  | t :: ts => t.variables ++ variablesOfTerms ts

def Stmt.variables : Stmt → List Bytes
  | .raw _ => []
  | .write _ t _ | .markdown t | .sanitized t _ => t.variables
  | .call _ args => variablesOfTerms args
  | .branch _ t yes no => t.variables ++ variablesOfStmts yes ++
      match no with
      | some body => variablesOfStmts body
      | none => []
  | .each _ t item index body => t.variables ++ item :: (index.toList ++ variablesOfStmts body)

def variablesOfStmts : List Stmt → List Bytes
  | [] => []
  | s :: ss => s.variables ++ variablesOfStmts ss

end

/-- The variables of a function: those of its parameters and those its body declares. -/
def Function.variables (f : Function) : List Bytes :=
  f.params.map (·.1) ++ variablesOfStmts f.body

theorem variablesOfTerms_eq_flatMap (ts : List Term) :
    variablesOfTerms ts = ts.flatMap Term.variables := by
  induction ts with
  | nil => rfl
  | cons t ts ih => rw [variablesOfTerms, ih, List.flatMap_cons]

theorem variablesOfStmts_eq_flatMap (ss : List Stmt) :
    variablesOfStmts ss = ss.flatMap Stmt.variables := by
  induction ss with
  | nil => rfl
  | cons s ss ih => rw [variablesOfStmts, ih, List.flatMap_cons]

theorem Term.variables_subset {t : Term} {ts : List Term} (h : t ∈ ts) :
    t.variables ⊆ variablesOfTerms ts := fun id hid => by
  rw [variablesOfTerms_eq_flatMap]
  exact List.mem_flatMap.2 ⟨t, h, hid⟩

theorem Stmt.variables_subset {t : Stmt} {ss : List Stmt} (h : t ∈ ss) :
    t.variables ⊆ variablesOfStmts ss := fun id hid => by
  rw [variablesOfStmts_eq_flatMap]
  exact List.mem_flatMap.2 ⟨t, h, hid⟩

theorem variablesOfStmts_flushed (pending : Bytes) (ss : List Stmt) :
    variablesOfStmts (flushed pending ss) = variablesOfStmts ss := by
  unfold flushed
  split
  · rfl
  · rw [variablesOfStmts, Stmt.variables, List.nil_append]

/-! ## Free variables -/

def underscore : UInt8 := '_'.toUInt8

/-- A variable that is nothing else: no reserved name, or one with an underscore at its end. -/
def IsFree (functions : List Bytes) (id : Bytes) : Prop :=
  isReserved functions id = false ∨ id.getLast? = some underscore

theorem getLast?_append_underscore (id : Bytes) : (id ++ "_").getLast? = some underscore := by
  have h : Bytes.ofString "_" = [underscore] := by decide
  rw [h, List.getLast?_concat]

theorem freshen_eq_or (used : List Bytes) (fuel : Nat) (id : Bytes) :
    freshen used fuel id = id ∨ (freshen used fuel id).getLast? = some underscore := by
  induction fuel generalizing id with
  | zero => exact .inl rfl
  | succ fuel ih =>
      rw [freshen]
      split
      · rcases ih (id ++ "_") with h | h
        · rw [h]
          exact .inr (getLast?_append_underscore id)
        · exact .inr h
      · exact .inl rfl

theorem isFree_variableFor (functions used : List Bytes) (name : Bytes) :
    IsFree functions (variableFor functions used name) := by
  rw [variableFor]
  cases hreserved : isReserved functions name with
  | true =>
      rw [if_pos rfl]
      rcases freshen_eq_or used (used.length + 1) (name ++ "_") with h | h
      · rw [h]
        exact .inr (getLast?_append_underscore name)
      · exact .inr h
  | false =>
      rw [if_neg Bool.false_ne_true]
      rcases freshen_eq_or used (used.length + 1) name with h | h
      · rw [h]
        exact .inl hreserved
      · exact .inr h

theorem IsFree.ne_numbered {functions : List Bytes} {id : Bytes} (h : IsFree functions id)
    {name : Bytes} (hname : name.head? = some underscore) (n : Nat) : id ≠ name ++ Bytes.ofNat n := by
  rintro rfl
  rcases h with h | h
  · have hhead : (name ++ Bytes.ofNat n).head? = some underscore := by
      rw [List.head?_append, hname]
      rfl
    simp [isReserved, hhead, underscore] at h
  · rw [List.getLast?_append_of_ne_nil _ (Bytes.ofNat_ne_nil n)] at h
    have hdigit := Bytes.isDigit_of_mem_ofNat n _ (List.mem_of_getLast? h)
    exact absurd hdigit (by decide)

/-- A free variable is no word of the language, no name that generated code has for something, and
no function. -/
theorem IsFree.ne_reserved {functions : List Bytes} {id : Bytes} (h : IsFree functions id)
    (hfunctions : ∀ f ∈ functions, f.getLast? ≠ some underscore) :
    id ∉ keywords ∧ id ∉ predeclared ∧ id ≠ Name.reserved ∧ id ∉ functions := by
  rcases h with h | h
  · simp only [isReserved, Bool.or_eq_false_iff, beq_eq_false_iff_ne, List.contains_eq_mem,
      decide_eq_false_iff_not] at h
    obtain ⟨⟨⟨⟨hkeyword, hpredeclared⟩, -⟩, hreserved⟩, hfunction⟩ := h
    exact ⟨hkeyword, hpredeclared, hreserved, hfunction⟩
  · have hkeywords : ∀ w ∈ keywords, w.getLast? ≠ some underscore := by decide
    have hpredeclared : ∀ w ∈ predeclared, w.getLast? ≠ some underscore := by decide
    exact ⟨fun hmem => hkeywords id hmem h, fun hmem => hpredeclared id hmem h,
      fun heq => absurd (heq ▸ h) (by decide), fun hmem => hfunctions id hmem h⟩

/-! ## Variables in use -/

/-- These are the variables in use: no two are the same, and all are free. -/
structure InUse (s : Setting) (ids : List Bytes) (st : EmitState) : Prop where
  used : st.used = ids
  nodup : ids.Nodup
  free : ∀ id ∈ ids, IsFree s.functions id

/-- Emission takes the variables that its code declares, and no others. -/
def Takes {α : Type} (s : Setting) (x : Emit α) (taken : α → List Bytes) : Prop :=
  ∀ ids, Ensures (InUse s ids) x fun a => InUse s (ids ++ taken a)

section

variable {α : Type} {s : Setting} {ids : List Bytes}

theorem Takes.mapM {β : Type} {f : α → Emit β} {v : β → List Bytes} {xs : List α}
    (hf : ∀ x ∈ xs, Takes s (f x) v) : Takes s (xs.mapM f) fun ys => ys.flatMap v := by
  induction xs with
  | nil => exact fun ids => Ensures.pure fun st h => by simpa using h
  | cons x xs ih =>
      rw [List.forall_mem_cons] at hf
      intro ids
      rw [List.mapM_cons]
      refine Ensures.bind (hf.1 ids) fun y => Ensures.bind (ih hf.2 _) fun ys =>
        Ensures.pure fun st h => ?_
      show InUse s (ids ++ (y :: ys).flatMap v) st
      rwa [List.flatMap_cons, ← List.append_assoc]

theorem declare_takes (s : Setting) (name : Bytes) : Takes s (declare s name) fun id => [id] := by
  intro ids st h
  have hfresh := declare_fresh s name st
  rw [h.used] at hfresh
  refine ⟨congrArg (· ++ _) h.used, ?_, ?_⟩
  · exact List.nodup_append.2 ⟨h.nodup, List.nodup_singleton _, fun a ha b hb heq =>
      hfresh (List.mem_singleton.1 hb ▸ heq ▸ ha)⟩
  · intro id hid
    rcases List.mem_append.1 hid with hid | hid
    · exact h.free id hid
    · rw [List.mem_singleton.1 hid]
      exact isFree_variableFor s.functions st.used name

theorem program_keeps (source : Bytes) : Keeps (InUse s ids) (program source) fun _ => True := by
  intro st h
  simp only [program, StateT.run_bind, StateT.run_get, pure_bind]
  split
  · exact ⟨h, trivial⟩
  · exact ⟨⟨h.used, h.nodup, h.free⟩, trivial⟩

theorem nextLoop_keeps : Keeps (InUse s ids) nextLoop fun _ => True :=
  fun _ h => ⟨⟨h.used, h.nodup, h.free⟩, trivial⟩

/-- Terms without content blocks declare nothing. -/
abbrev Plain (t : Term) : Prop := t.variables = []

theorem plain_literalTerm (l : Literal) : Plain (literalTerm l).1 := by
  cases l <;> rfl

theorem value_keeps (scope : List Local) (e : Expression) :
    Keeps (InUse s ids) (value scope e) fun v => Plain v.1 := by
  unfold value
  split
  · exact Keeps.pure rfl
  · split
    · exact Keeps.pure (plain_literalTerm _)
    · exact (program_keeps e.source).bind fun _ _ => Keeps.pure rfl

theorem variables_asText (t : Term) (type : ParamType) :
    (asText t type).variables = t.variables := by
  unfold asText
  split <;> rfl

theorem variables_handOver (t : Term) (given wanted : ParamType) :
    (handOver t given wanted).variables = t.variables := by
  unfold handOver
  split
  · rfl
  · cases wanted with
    | text => exact variables_asText t given
    | _ => rfl

theorem quoted_keeps (scope : List Local) (parts : List Part) :
    Keeps (InUse s ids) (quoted scope parts) Plain := by
  have hpart : ∀ p ∈ parts, Keeps (InUse s ids) (partTerm scope p) Plain := by
    intro p _
    cases p with
    | literal pos text => exact Keeps.pure rfl
    | interpolation pos e =>
        exact (value_keeps scope e).bind fun v hv => Keeps.pure ((variables_asText v.1 v.2).trans hv)
  refine (Keeps.mapM parts hpart).bind fun ts hts => ?_
  split
  · exact Keeps.pure rfl
  · exact Keeps.pure (hts _ List.mem_cons_self)
  · refine Keeps.pure ?_
    rw [Plain, Term.variables, variablesOfTerms_eq_flatMap]
    exact List.flatMap_eq_nil_iff.2 hts

theorem defaultTerm_keeps (scope : List Local) (p : Param) :
    Keeps (InUse s ids) (defaultTerm scope p) Plain := by
  unfold defaultTerm
  split
  · refine Keeps.pure ?_
    split <;> rfl
  · refine (value_keeps scope _).bind fun v hv => ?_
    obtain ⟨t, type⟩ := v
    have hv : t.variables = [] := hv
    cases p.type with
    | content =>
        dsimp only
        split <;> exact Keeps.pure hv
    | text => exact Keeps.pure ((variables_asText t type).trans hv)
    | _ => exact Keeps.pure hv

theorem builtinTerm_keeps (scope : List Local) (args : List Arg) :
    Keeps (InUse s ids) (builtinTerm scope args) Plain := by
  unfold builtinTerm
  split
  · exact quoted_keeps scope _
  · exact (value_keeps scope _).map
  · exact Keeps.pure rfl

theorem variables_builtinWrite (b : Builtin) (args : List Arg) (t : Term) :
    (builtinWrite b args t).variables = t.variables := by
  unfold builtinWrite
  cases b.write <;> rfl

end

/-! ## The variables of nodes -/

section

variable {s : Setting}

theorem callStmt_takes (scope : List Local) (name : Bytes) {codes : List (Bytes × ArgCode)}
    (hcodes : ∀ c ∈ codes, ∀ type, Takes s (c.2 type) Term.variables) :
    Takes s (callStmt s scope name codes) Stmt.variables := by
  intro ids
  refine Ensures.bind (Takes.mapM (v := Term.variables) (fun p _ => ?_) ids) fun ts =>
    Ensures.pure fun st h => ?_
  · cases hcode : argFor codes p.name with
    | none =>
        intro ids
        exact Ensures.weaken (defaultTerm_keeps scope p) fun t st h => by
          rw [h.2, List.append_nil]
          exact h.1
    | some code =>
        obtain ⟨c, hc, rfl⟩ := Option.map_eq_some_iff.1 hcode
        exact hcodes c (List.mem_of_find?_eq_some hc) p.type
  · rwa [Stmt.variables, variablesOfTerms_eq_flatMap]

mutual

theorem nodeStmt_takes (s : Setting) (scope : List Local) (n : Node) :
    Takes s (nodeStmt s scope n) Stmt.variables := by
  intro ids
  cases n with
  | literal pos t => exact Ensures.pure fun st h => by simpa [Stmt.variables] using h
  | interpolation pos e esc =>
      rw [nodeStmt]
      refine Keeps.bind_ensures (value_keeps scope e) fun v hv => Ensures.pure fun st h => ?_
      rwa [Stmt.variables, hv, List.append_nil]
  | invocation pos name args =>
      rw [nodeStmt]
      split
      · rw [builtinStmt_eq]
        refine Keeps.bind_ensures (builtinTerm_keeps scope args) fun t ht => Ensures.pure fun st h => ?_
        rwa [variables_builtinWrite, ht, List.append_nil]
      · exact callStmt_takes scope name (argCodes_takes s scope args) ids
  | cond pos e body otherwise =>
      rw [nodeStmt]
      refine Keeps.bind_ensures (value_keeps scope e) fun v hv =>
        Ensures.bind (nodeStmts_takes s scope [] body ids) fun yes => ?_
      cases otherwise with
      | none =>
          refine Ensures.pure fun st h => ?_
          rwa [Stmt.variables, hv, List.nil_append, List.append_nil]
      | some nodes =>
          refine Ensures.bind (nodeStmts_takes s scope [] nodes _) fun no => Ensures.pure fun st h => ?_
          rwa [Stmt.variables, hv, List.nil_append, ← List.append_assoc]
  | loop pos e item index body =>
      cases hindex : index.isEmpty with
      | true =>
          rw [List.isEmpty_iff.1 hindex, nodeStmt_loop_nil]
          refine Keeps.bind_ensures (value_keeps scope e) fun v hv =>
            Keeps.bind_ensures nextLoop_keeps fun entry _ =>
              Ensures.bind (declare_takes s item ids) fun itemId =>
                Ensures.bind (nodeStmts_takes s _ [] body _) fun stmts => Ensures.pure fun st h => ?_
          simpa [Stmt.variables, hv] using h
      | false =>
          rw [nodeStmt_loop_cons s scope pos e item hindex]
          refine Keeps.bind_ensures (value_keeps scope e) fun v hv =>
            Keeps.bind_ensures nextLoop_keeps fun entry _ =>
              Ensures.bind (declare_takes s item ids) fun itemId =>
                Ensures.bind (declare_takes s index _) fun indexId =>
                  Ensures.bind (nodeStmts_takes s _ [] body _) fun stmts =>
                    Ensures.pure fun st h => ?_
          simpa [Stmt.variables, hv] using h

theorem nodeStmts_takes (s : Setting) (scope : List Local) (pending : Bytes) (ns : List Node) :
    Takes s (nodeStmts s scope pending ns) variablesOfStmts := by
  intro ids
  cases ns with
  | nil =>
      refine Ensures.pure fun st h => ?_
      rwa [variablesOfStmts_flushed, variablesOfStmts, List.append_nil]
  | cons n ns =>
      cases n with
      | literal pos t =>
          rw [nodeStmts]
          exact nodeStmts_takes s scope (pending ++ t) ns ids
      | _ =>
          rw [nodeStmts]
          · refine Ensures.bind (nodeStmt_takes s scope _ ids) fun stmt =>
              Ensures.bind (nodeStmts_takes s scope [] ns _) fun stmts => Ensures.pure fun st h => ?_
            rwa [variablesOfStmts_flushed, variablesOfStmts, ← List.append_assoc]
          · simp

theorem argCodes_takes (s : Setting) (scope : List Local) (args : List Arg) :
    ∀ c ∈ argCodes s scope args, ∀ type, Takes s (c.2 type) Term.variables := by
  cases args with
  | nil => simp [argCodes]
  | cons a as =>
      have has := argCodes_takes s scope as
      cases a with
      | text pos name parts =>
          rw [argCodes]
          refine List.forall_mem_cons.2 ⟨fun type ids => ?_, has⟩
          refine Keeps.bind_ensures (quoted_keeps scope parts) fun t ht => Ensures.pure fun st h => ?_
          split
          · rwa [Term.variables, ht, List.append_nil]
          · rwa [ht, List.append_nil]
      | expr pos name e =>
          rw [argCodes]
          refine List.forall_mem_cons.2 ⟨fun type ids => ?_, has⟩
          refine Keeps.bind_ensures (value_keeps scope e) fun v hv => Ensures.pure fun st h => ?_
          rwa [variables_handOver, hv, List.append_nil]
      | content pos name body =>
          rw [argCodes]
          refine List.forall_mem_cons.2 ⟨fun type ids => ?_, has⟩
          refine Ensures.bind (nodeStmts_takes s scope [] body ids) fun stmts =>
            Ensures.pure fun st h => ?_
          rwa [Term.variables]

end

/-! ## The variables of functions -/

theorem declareParam_takes (param : Param) : Takes s (declareParam s param) fun l => [l.id] := by
  intro ids
  exact Ensures.bind (declare_takes s param.name ids) fun id => Ensures.pure fun st h => h

theorem tagCode_takes (s : Setting) (params : List Param) (body : List Node) :
    Takes s (tagCode s params body) fun c => c.1.map (·.id) ++ variablesOfStmts c.2 := by
  intro ids
  refine Ensures.bind (Takes.mapM (fun param _ => declareParam_takes param) ids) fun scope =>
    Ensures.bind (nodeStmts_takes s scope [] body _) fun stmts => Ensures.pure fun st h => ?_
  have hids : scope.flatMap (fun l => [l.id]) = scope.map (·.id) := by
    rw [List.map_eq_flatMap]
  show InUse s (ids ++ (scope.map (·.id) ++ variablesOfStmts stmts)) st
  rwa [← hids, ← List.append_assoc]

theorem variables_function (s : Setting) (programs : List Bytes) (d : Definition) :
    (function s programs d).1.variables.Nodup ∧
      ∀ id ∈ (function s programs d).1.variables, IsFree s.functions id := by
  obtain ⟨renders, hf⟩ := function_eq s programs d
  have hin := tagCode_takes s (Compilation.loaded s.signatures d).params d.body []
    ⟨programs, [], 0⟩ ⟨rfl, List.nodup_nil, fun _ h => nomatch h⟩
  rw [hf, Function.variables, List.map_map]
  exact ⟨hin.nodup, hin.free⟩

end

end Code

end TagLoom

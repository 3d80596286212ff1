import TagLoom.Proofs.Code.Emission
import TagLoom.Proofs.Code.Meaning
import TagLoom.Proofs.Value.Expand

/-!
# Generated code and rendering go together

Emitted code is followed by the renderer step by step.  Both keep values that differ only in what
their blocks are, so a run is described by joint values: a block of a joint value is a closure of
the code together with a block of nodes that does the same up to some depth.
-/

namespace TagLoom.Code

open Value

/-! ## Joint values -/

/-- Whatever comes out of the first computation comes out of the second, as long as nobody gave the
page up. -/
def Follows (x y : Page → Option Page) : Prop :=
  ∀ p p', p.cancelled = false → x p = some p' → y p = some p' ∧ p'.cancelled = false

variable [Language]

/-- A closure of the code and a block of nodes that follows it up to a depth. -/
structure Joint (pkg : Package) (bundle : Bundle) (depth : Nat) where
  code : Closure
  locals : Env Closure
  nodes : NodeBlock
  names : Env NodeBlock
  follows : ∀ m ≤ depth,
    Follows ((pkg.runner m).block code locals) ((bundle.runner m).block nodes names)

variable {pkg : Package} {bundle : Bundle} {depth : Nat}

namespace Joint

def toCode (v : Value (Joint pkg bundle depth)) : Value Closure :=
  expand (fun j => (j.code, j.locals)) v

def toNodes (v : Value (Joint pkg bundle depth)) : Value NodeBlock :=
  expand (fun j => (j.nodes, j.names)) v

def toNames (env : Env (Joint pkg bundle depth)) : Env NodeBlock :=
  expandEntries (fun j => (j.nodes, j.names)) env

def lower {m : Nat} (h : m ≤ depth) (j : Joint pkg bundle depth) : Joint pkg bundle m :=
  ⟨j.code, j.locals, j.nodes, j.names, fun n hn => j.follows n (Nat.le_trans hn h)⟩

def lowerValue {m : Nat} (h : m ≤ depth) (v : Value (Joint pkg bundle depth)) :
    Value (Joint pkg bundle m) :=
  expand (fun j => (lower h j, [])) v

theorem toCode_lowerValue {m : Nat} (h : m ≤ depth) (v : Value (Joint pkg bundle depth)) :
    toCode (lowerValue h v) = toCode v :=
  expand_expand _ _ v

end Joint

open Joint

/-- A value that can stand where a type is asked for. -/
def Typed {β : Type} : ParamType → Value β → Prop
  | .text, v => ∃ s, v = .text s
  | .content, v => v.asContent = v
  | _, _ => True

/-! ## Scopes -/

/-- The variables of a scope hold the values of the names, and the scope knows the types of the
same names. -/
structure Agrees (scope : List Local) (locals : Env Closure) (types : Types)
    (env : Env (Joint pkg bundle depth)) : Prop where
  found : ∀ name l, lookup scope name = some l → types.get? name = some l.type ∧
    ∃ v, env.get? name = some v ∧ locals.get l.id = toCode v ∧ Typed l.type v
  missing : ∀ name, lookup scope name = none → types.get? name = none ∧ env.get? name = none

/-! ## Terms -/

section Terms

variable {scope : List Local} {programs : List Bytes} {locals : Env Closure} {types : Types}
  {env : Env (Joint pkg bundle depth)}

/-- The term evaluates to the value that the renderer computes, and leaves the same page. -/
def Evaluates (programs : List Bytes) (locals : Env Closure) (t : Term)
    (x : Page → Value (Joint pkg bundle depth) × Page) : Prop :=
  ∀ p, termValue programs locals t p = (toCode (x p).1, (x p).2)

theorem namedValues_envOf (hA : Agrees scope locals types env) (e : Expression) :
    namedValues locals (envOf scope e) =
      expandEntries (fun j => (j.code, j.locals)) (Rendering.bindings e env) := by
  rw [envOf, Rendering.bindings]
  split
  · rename_i hnames
    rw [List.isEmpty_iff.1 hnames]
    rfl
  · rw [namedValues, expandEntries_eq_map, List.map_filterMap, List.map_filterMap]
    congr 1
    funext n
    cases hl : lookup scope n with
    | none => rw [(hA.missing n hl).2]; rfl
    | some l =>
        obtain ⟨-, v, hv, hid, -⟩ := hA.found n l hl
        simp only [hv, Option.map_some, hid]
        rfl

theorem typed_literal (l : Literal) :
    Typed (literalTerm l).2 (l.toValue : Value (Joint pkg bundle depth)) := by
  cases l with
  | text s => exact ⟨s, rfl⟩
  | _ => trivial

theorem termValue_literalTerm (l : Literal) (p : Page) :
    termValue programs locals (literalTerm l).1 p = (l.toValue, p) := by
  cases l <;> rfl

private theorem valueOf_of_bare {e : Expression} {type : ParamType} (hb : e.isBare = true)
    (ht : types.get? e.source = some type) (p : Page) :
    Rendering.valueOf types env e p = (env.get e.source, p) := by
  rw [Rendering.valueOf, hb, ht]
  rfl

private theorem valueOf_of_free {e : Expression}
    (ht : (if e.isBare then types.get? e.source else none) = none) (p : Page) :
    Rendering.valueOf types env e p =
      match e.literal? with
      | some l => (l.toValue, p)
      | none => p.evaluate e (Rendering.bindings e env) := by
  rw [Rendering.valueOf]
  cases hb : e.isBare with
  | false => rfl
  | true =>
      rw [hb, if_pos rfl] at ht
      rw [ht]
      rfl

/-- The code of an expression: a term with the value and the type of the expression. -/
structure Computes (programs : List Bytes) (locals : Env Closure) (types : Types)
    (env : Env (Joint pkg bundle depth)) (e : Expression) (code : Term × ParamType) : Prop where
  type : code.2 = Rendering.typeOf types e
  evaluates : Evaluates programs locals code.1 (Rendering.valueOf types env e)
  typed : ∀ p, Typed code.2 (Rendering.valueOf types env e p).1

private theorem computes_local {e : Expression} {l : Local} (hb : e.isBare = true)
    (hA : Agrees scope locals types env) (hl : lookup scope e.source = some l) :
    Computes programs locals types env e (.name l.id, l.type) := by
  obtain ⟨ht, v, hv, hid, htyped⟩ := hA.found _ l hl
  have hget : env.get e.source = v := by rw [Env.get, hv]; rfl
  refine ⟨?_, fun p => ?_, fun p => ?_⟩
  · rw [Rendering.typeOf, hb, if_pos rfl, ht]
  · rw [valueOf_of_bare hb ht, hget, termValue, hid]
  · rw [valueOf_of_bare hb ht, hget]
    exact htyped

private theorem computes_literal {e : Expression} {l : Literal} (hl : e.literal? = some l)
    (ht : (if e.isBare then types.get? e.source else none) = none) :
    Computes programs locals types env e (literalTerm l) := by
  refine ⟨?_, fun p => ?_, fun p => ?_⟩
  · rw [Rendering.typeOf, ht, hl]
    cases l <;> rfl
  · rw [valueOf_of_free ht, hl, termValue_literalTerm]
    exact congrArg (·, p) (Rendering.expand_toValue _ l).symm
  · rw [valueOf_of_free ht, hl]
    exact typed_literal l

private theorem computes_program [LawfulLanguage] {e : Expression} {i : Nat}
    (hA : Agrees scope locals types env)
    (he : Expression.ofSource e.source = .ok e) (hl : e.literal? = none)
    (ht : (if e.isBare then types.get? e.source else none) = none)
    (hi : programs[i]? = some e.source) :
    Computes programs locals types env e (.eval i (envOf scope e), .value) := by
  refine ⟨?_, fun p => ?_, fun p => trivial⟩
  · rw [Rendering.typeOf, ht, hl]
    rfl
  · rw [valueOf_of_free ht, hl, termValue, evalProgram, hi, Option.map_some, he,
      namedValues_envOf hA]
    exact Page.evaluate_expand _ p e _

theorem value_yields [LawfulLanguage] (hA : Agrees scope locals types env) {e : Expression}
    (he : Expression.ofSource e.source = .ok e) :
    Yields scope programs (value scope e) (Computes programs locals types env e) := by
  unfold value
  cases hbare : (if e.isBare then lookup scope e.source else none) with
  | some l =>
      cases hb : e.isBare with
      | false => rw [hb] at hbare; cases hbare
      | true =>
          rw [hb, if_pos rfl] at hbare
          exact Yields.pure (computes_local hb hA hbare)
  | none =>
      have ht : (if e.isBare then types.get? e.source else none) = none := by
        split at hbare
        · rename_i hb
          rw [if_pos hb]
          exact (hA.missing _ hbare).1
        · rename_i hb
          rw [if_neg hb]
      cases hl : e.literal? with
      | some l => exact Yields.pure (computes_literal hl ht)
      | none =>
          exact Yields.bind (program_adds _) (yields_program e.source) (fun _ => Adds.pure _)
            fun i hi => Yields.pure (computes_program hA he hl ht hi)

/-! ## Quoted arguments -/

theorem toText_toCode (v : Value (Joint pkg bundle depth)) : (toCode v).toText = v.toText :=
  toText_expand _ v

def EvaluatesText (programs : List Bytes) (locals : Env Closure) (t : Term)
    (x : Page → Bytes × Page) : Prop :=
  ∀ p, termValue programs locals t p = (.text (x p).1, (x p).2)

theorem Computes.asText {e : Expression} {code : Term × ParamType}
    (h : Computes programs locals types env e code) :
    EvaluatesText programs locals (asText code.1 code.2) fun p =>
      ((Rendering.valueOf types env e p).1.toText, (Rendering.valueOf types env e p).2) := by
  intro p
  have htyped := h.typed p
  rw [Code.asText]
  split
  · rename_i htext
    rw [beq_iff_eq.1 htext] at htyped
    obtain ⟨s, hs⟩ := htyped
    simp only [h.evaluates p, hs, toCode, expand, toText, text?, Option.getD_some]
  · rw [termValue, h.evaluates p]
    simp only [toText_toCode]

def EvaluatesTexts (programs : List Bytes) (locals : Env Closure) (ts : List Term)
    (x : Page → Bytes × Page) : Prop :=
  ∀ p, ∃ texts : List Bytes,
    termValues programs locals ts p = (texts.map .text, (x p).2) ∧ texts.flatten = (x p).1

private theorem part_yields [LawfulLanguage] (hA : Agrees scope locals types env) {part : Part}
    (hpart : ∀ pos e, part = .interpolation pos e → Expression.ofSource e.source = .ok e) :
    Yields scope programs (partTerm scope part) fun t =>
      EvaluatesText programs locals t (Rendering.textOf types env [part]) := by
  cases part with
  | literal pos s =>
      refine Yields.pure fun p => ?_
      simp only [termValue, Rendering.textOf, List.append_nil]
  | interpolation pos e =>
      refine Yields.bind (value_adds _ _) (value_yields hA (hpart pos e rfl)) (fun _ => Adds.pure _)
        fun code hcode => Yields.pure fun p => ?_
      simp only [hcode.asText p, Rendering.textOf, List.append_nil]

private theorem textOf_cons (part : Part) (parts : List Part) (p : Page) :
    Rendering.textOf types env (part :: parts) p =
      ((Rendering.textOf types env [part] p).1 ++
          (Rendering.textOf types env parts (Rendering.textOf types env [part] p).2).1,
        (Rendering.textOf types env parts (Rendering.textOf types env [part] p).2).2) := by
  cases part <;> simp only [Rendering.textOf, List.append_nil]

private theorem parts_yield [LawfulLanguage] (hA : Agrees scope locals types env) {parts : List Part}
    (hparts : ∀ pos e, Part.interpolation pos e ∈ parts → Expression.ofSource e.source = .ok e) :
    Yields scope programs (parts.mapM (partTerm scope)) fun ts =>
      EvaluatesTexts programs locals ts (Rendering.textOf types env parts) := by
  induction parts with
  | nil => exact Yields.pure fun p => ⟨[], rfl, rfl⟩
  | cons part parts ih =>
      rw [List.mapM_cons]
      have hadds := Adds.mapM fun (q : Part) (_ : q ∈ parts) => partTerm_adds scope q
      refine Yields.bind (partTerm_adds _ _)
        (part_yields hA fun pos e h => hparts pos e (by simp [h]))
        (fun _ => hadds.bind fun _ => Adds.pure _) fun t ht => ?_
      refine Yields.bind hadds (ih fun pos e h => hparts pos e (by simp [h]))
        (fun _ => Adds.pure _) fun ts hts => Yields.pure fun p => ?_
      obtain ⟨texts, hvalues, hflat⟩ := hts (Rendering.textOf types env [part] p).2
      refine ⟨(Rendering.textOf types env [part] p).1 :: texts, ?_, ?_⟩
      · rw [textOf_cons part parts]
        simp only [termValues, ht p, hvalues, List.map_cons]
      · rw [textOf_cons part parts, List.flatten_cons, hflat]

theorem quoted_yields [LawfulLanguage] (hA : Agrees scope locals types env) {parts : List Part}
    (hparts : ∀ pos e, Part.interpolation pos e ∈ parts → Expression.ofSource e.source = .ok e) :
    Yields scope programs (quoted scope parts) fun t =>
      EvaluatesText programs locals t (Rendering.textOf types env parts) := by
  have hadds := Adds.mapM fun (q : Part) (_ : q ∈ parts) => partTerm_adds scope q
  refine Yields.bind hadds (parts_yield hA hparts) (fun ts => by split <;> exact Adds.pure _)
    fun ts hts => ?_
  have hconcat : EvaluatesText programs locals (.concat ts) (Rendering.textOf types env parts) := by
    intro p
    obtain ⟨texts, hvalues, hflat⟩ := hts p
    have hjoin : (texts.map fun s => (.text s : Value Closure)).flatMap toText = texts.flatten := by
      simp [List.flatMap_map, toText, text?]
    simp only [termValue, hvalues, ← hflat, hjoin]
  rcases ts with _ | ⟨t, _ | ⟨u, ts⟩⟩
  · refine Yields.pure fun p => ?_
    have h := hconcat p
    simpa only [termValue, termValues, List.flatMap_nil] using h
  · refine Yields.pure fun p => ?_
    obtain ⟨texts, hvalues, hflat⟩ := hts p
    simp only [termValues, Prod.mk.injEq] at hvalues
    obtain ⟨hv, hq⟩ := hvalues
    obtain ⟨s, rest, rfl, hs, hrest⟩ := List.map_eq_cons_iff.1 hv.symm
    rw [List.map_eq_nil_iff.1 hrest, List.flatten_singleton] at hflat
    rw [← hflat, ← hq, hs]
  · exact Yields.pure hconcat

/-! ## Handing values over -/

theorem typed_convert {given : ParamType} {v : Value (Joint pkg bundle depth)} (h : Typed given v)
    (wanted : ParamType) : Typed wanted (Rendering.convert v given wanted) := by
  cases wanted with
  | text =>
      simp only [Rendering.convert]
      split
      · rename_i hg
        rw [beq_iff_eq.1 hg] at h
        exact h
      · exact ⟨_, rfl⟩
  | content => exact asContent_asContent v
  | unknown | value => trivial

theorem toCode_asContent (v : Value (Joint pkg bundle depth)) :
    (toCode v).asContent = toCode v.asContent :=
  asContent_expand _ v

/-- A term that hands a parameter of a type a joint value, as the renderer does. -/
def Passes (depth : Nat) (pkg : Package) (bundle : Bundle) (programs : List Bytes)
    (locals : Env Closure) (t : Term) (wanted : ParamType)
    (y : Page → Value NodeBlock × Page) : Prop :=
  ∀ p, ∃ (v : Value (Joint pkg bundle depth)) (q : Page), Typed wanted v ∧
    termValue programs locals t p = (toCode v, q) ∧ y p = (toNodes v, q) ∧
    q.cancelled = p.cancelled

theorem evaluate_cancelled {β : Type} (p : Page) (e : Expression) (env : Env β) :
    (p.evaluate e env).2.cancelled = p.cancelled := by
  rw [Page.evaluate]
  split
  · rfl
  · split
    · rfl
    · rw [Page.fail]
      split <;> rfl

theorem valueOf_cancelled {β : Type} (types : Types) (env : Env β) (e : Expression) (p : Page) :
    (Rendering.valueOf types env e p).2.cancelled = p.cancelled := by
  rw [Rendering.valueOf]
  split
  · rfl
  · split
    · rfl
    · exact evaluate_cancelled p e _

def converted {β : Type} (types : Types) (env : Env β) (e : Expression) (wanted : ParamType)
    (p : Page) : Value β × Page :=
  (Rendering.convert (Rendering.valueOf types env e p).1 (Rendering.typeOf types e) wanted,
    (Rendering.valueOf types env e p).2)

theorem Computes.gives [LawfulLanguage] {e : Expression} {code : Term × ParamType}
    (h : Computes programs locals types env e code) :
    Passes depth pkg bundle programs locals code.1 code.2
      (Rendering.valueOf types (toNames env) e) := by
  intro p
  refine ⟨_, _, h.typed p, h.evaluates p, ?_, valueOf_cancelled types env e p⟩
  rw [toNames, Rendering.valueOf_expand]
  rfl

theorem Computes.passes [LawfulLanguage] {e : Expression} {code : Term × ParamType} {t : Term}
    {wanted : ParamType}
    (h : Computes programs locals types env e code)
    (ht : Evaluates programs locals t (converted types env e wanted)) :
    Passes depth pkg bundle programs locals t wanted
      (converted types (toNames env) e wanted) := by
  intro p
  have htyped := h.typed p
  rw [h.type] at htyped
  refine ⟨_, _, typed_convert htyped wanted, ht p, ?_, valueOf_cancelled types env e p⟩
  rw [converted, toNames, Rendering.valueOf_expand, Rendering.convert_expand]
  rfl

theorem Computes.asText_evaluates {e : Expression} {code : Term × ParamType}
    (h : Computes programs locals types env e code) :
    Evaluates programs locals (Code.asText code.1 code.2) (converted types env e .text) := by
  intro p
  rw [h.asText p, converted, Rendering.convert]
  have htyped := h.typed p
  rw [h.type] at htyped
  split
  · rename_i htext
    rw [beq_iff_eq.1 htext] at htyped
    obtain ⟨s, hs⟩ := htyped
    simp only [hs, toCode, expand, toText, text?, Option.getD_some]
  · simp only [toCode, expand]

theorem Computes.asContent_evaluates {e : Expression} {code : Term × ParamType}
    (h : Computes programs locals types env e code) :
    Evaluates programs locals (.asContent code.1) (converted types env e .content) := by
  intro p
  rw [termValue, h.evaluates p]
  exact congrArg (·, (Rendering.valueOf types env e p).2) (toCode_asContent _)

theorem Computes.handOver_evaluates {e : Expression} {code : Term × ParamType}
    (h : Computes programs locals types env e code) (wanted : ParamType) :
    Evaluates programs locals (handOver code.1 code.2 wanted)
      (converted types env e wanted) := by
  unfold handOver
  split
  · rename_i hsame
    have hsame := beq_iff_eq.1 hsame
    intro p
    rw [h.evaluates p, converted, ← h.type, hsame]
    have htyped := h.typed p
    rw [hsame] at htyped
    cases wanted with
    | content => rw [Rendering.convert, htyped]
    | _ => rfl
  · cases wanted with
    | text => exact h.asText_evaluates
    | content => exact h.asContent_evaluates
    | unknown | value => exact h.evaluates

/-! ## Defaults -/

theorem agrees_nil : Agrees [] locals [] ([] : Env (Joint pkg bundle depth)) :=
  ⟨fun _ _ h => (nomatch h), fun _ _ => ⟨rfl, rfl⟩⟩

theorem valueOf_nil {β : Type} {e : Expression} (hnames : e.names = []) (env : Env β) (p : Page) :
    Rendering.valueOf [] env e p = Rendering.valueOf [] ([] : Env β) e p := by
  have hbindings (env : Env β) : Rendering.bindings e env = [] := by
    rw [Rendering.bindings, hnames]
    rfl
  have hfree : (Types.get? [] e.source).isSome = false := rfl
  simp only [Rendering.valueOf, hbindings, hfree, Bool.and_false, Bool.false_eq_true, if_false]

theorem defaultTerm_yields [LawfulLanguage] {param : Param} {e : Expression}
    (hdefault : param.default = some e)
    (he : Expression.ofSource e.source = .ok e) (hnames : e.names = [])
    (hscope : e.isBare → lookup scope e.source = none) (env : Env (Joint pkg bundle depth)) :
    Yields scope programs (defaultTerm scope param) fun t =>
      Passes depth pkg bundle programs locals t param.type
        (converted [] (toNames env) e param.type) := by
  have hrender : converted [] (toNames env) e param.type =
      converted [] (toNames ([] : Env (Joint pkg bundle depth))) e param.type := by
    funext p
    rw [converted, converted, valueOf_nil hnames (toNames env)]
    rfl
  have hvalue : Yields scope programs (value scope e)
      (Computes programs locals [] ([] : Env (Joint pkg bundle depth)) e) := by
    rw [value_nil hnames hscope]
    intro st _ hp
    exact value_yields agrees_nil he st (by simp) hp
  unfold defaultTerm
  rw [hdefault, hrender]
  refine Yields.bind (value_adds _ _) hvalue (fun code => ?_) fun code hcode => ?_
  · obtain ⟨t, type⟩ := code
    cases param.type <;> exact Adds.pure _
  · cases param.type with
    | content =>
        refine Yields.pure (hcode.passes ?_)
        split
        · exact hcode.asContent_evaluates
        · exact hcode.asContent_evaluates
    | text => exact Yields.pure (hcode.passes hcode.asText_evaluates)
    | unknown | value => exact Yields.pure (hcode.passes hcode.evaluates)

end Terms

end TagLoom.Code

import Mathlib.Data.List.Forall2
import TagLoom.Inference
import TagLoom.Proofs.Code.Simulation
import TagLoom.Proofs.Template.Tree

/-!
# Arguments of generated calls

The code of an invocation hands each parameter what the renderer hands it, so long as the call
checks left no parameter without a value and no text with content.
-/

namespace TagLoom

namespace Code

open Joint Value

variable {bundle : Bundle} {s : Setting} {P : LeafSpec}

/-! ## Calls that were checked -/

/-- Every parameter has an argument or a default, and content is not handed to a text. -/
structure Callable (params : List Param) (args : List Arg) : Prop where
  bound : ∀ param ∈ params, Arg.find? args param.name = none → ∃ e, param.default = some e
  content : ∀ param ∈ params, ∀ pos name body,
    Arg.find? args param.name = some (.content pos name body) → param.type ≠ .text

/-- Every call that is not of a built-in element is a call of a known tag as it has to be. -/
def CallsFit (bundle : Bundle) (calls : List Inference.CallSite) : Prop :=
  ∀ c ∈ calls, Builtin.find? c.name = none →
    ∃ t, bundle.find? c.name = some t ∧ Callable t.params c.args

/-- A default stands for itself: it reads no names, and no name in scope is written like it. -/
structure DefaultFits (P : LeafSpec) (e : Expression) : Prop where
  read : Expression.ofSource e.source = .ok e
  names : e.names = []
  bare : e.isBare → ¬ P.name e.source

def paramTerm (scope : List Local) (codes : List (Bytes × ArgCode)) (param : Param) : Emit Term :=
  match argFor codes param.name with
  | some code => code param.type
  | none => defaultTerm scope param

theorem paramTerm_adds (scope : List Local) (args : List Arg) (param : Param) :
    Adds (paramTerm scope (argCodes s scope args) param) := by
  rw [paramTerm]
  cases h : argFor (argCodes s scope args) param.name with
  | none => exact defaultTerm_adds scope param
  | some code =>
      obtain ⟨c, hc, rfl⟩ := Option.map_eq_some_iff.1 h
      exact argCodes_adds s scope args c (List.mem_of_find?_eq_some hc) param.type

theorem Tracks.follows {x : Page → Option (Page × Option RenderError)} {y : Page → Option Page}
    (h : Tracks x y) : Follows (fun p => (x p).map fun (p, e) => e.elim p p.fail) y := by
  intro p p' hp hx
  obtain ⟨⟨q, e⟩, hbody, rfl⟩ := Option.map_eq_some_iff.1 hx
  obtain ⟨hy, hq, he⟩ := h p q e hp hbody
  cases e with
  | none => exact ⟨hy, hq⟩
  | some e =>
      have hsame : q.fail e = q := Page.fail_of_failure (by rw [he e rfl]; rfl) e
      refine ⟨?_, (Page.fail_cancelled q e).trans hq⟩
      rw [hy]
      exact congrArg some hsame.symm

variable [Language] {pkg : Package} {depth : Nat}

/-! ## Lower depths -/

section Lower

variable {m : Nat} {scope : List Local} {locals : Env Closure} {types : Types}
  {env : Env (Joint pkg bundle depth)}

def lowerNames (h : m ≤ depth) (env : Env (Joint pkg bundle depth)) : Env (Joint pkg bundle m) :=
  expandEntries (fun j => (lower h j, [])) env

theorem toNames_lowerNames (h : m ≤ depth) : toNames (lowerNames h env) = toNames env :=
  expandEntries_expandEntries _ _ env

theorem Typed.lowerValue (h : m ≤ depth) {type : ParamType} {v : Value (Joint pkg bundle depth)}
    (hv : Typed type v) : Typed type (lowerValue h v) := by
  cases type with
  | text =>
      obtain ⟨t, rfl⟩ := hv
      exact ⟨t, rfl⟩
  | content => exact (asContent_expand _ v).trans (congrArg _ hv)
  | unknown | value => trivial

theorem Agrees.lower (hA : Agrees scope locals types env) (h : m ≤ depth) :
    Agrees scope locals types (lowerNames h env) := by
  refine ⟨fun name l hl => ?_, fun name hl => ?_⟩
  · obtain ⟨ht, v, hv, hid, htyped⟩ := hA.found name l hl
    refine ⟨ht, lowerValue h v, ?_, ?_, htyped.lowerValue h⟩
    · rw [lowerNames, Env.get?_expandEntries, hv]
      rfl
    · rw [toCode_lowerValue, hid]
  · obtain ⟨ht, hv⟩ := hA.missing name hl
    refine ⟨ht, ?_⟩
    rw [lowerNames, Env.get?_expandEntries, hv]
    rfl

end Lower

/-! ## Content blocks -/

theorem Tracks.body {r : Runner} {programs : List Bytes} {locals : Env Closure} {body : List Stmt}
    {y : Page → Option Page} (h : Tracks (runStmts r programs locals body) y) :
    Tracks (runBody r programs locals body) y := by
  intro p p' e hp hx
  obtain ⟨⟨q, e₁⟩, hstmts, hret⟩ := Option.map_eq_some_iff.1 hx
  simp only [Prod.mk.injEq] at hret
  obtain ⟨rfl, rfl⟩ := hret
  obtain ⟨hy, hq, he⟩ := h p q e₁ hp hstmts
  refine ⟨hy, hq, fun e' he' => ?_⟩
  cases e₁ with
  | some e₁ => exact he e' he'
  | none => rwa [Option.none_or, Page.err?_of_not_cancelled hq] at he'

/-- The code of a body is followed by the renderer at a depth, wherever the body stands. -/
def BodiesTrack (pkg : Package) (bundle : Bundle) (s : Setting) (P : LeafSpec) (n : Nat) : Prop :=
  ∀ {scope : List Local} {programs : List Bytes} {locals : Env Closure} {types : Types}
    {env : Env (Joint pkg bundle n)} (d : Definition) (loops : List Bytes) (ns : List Node),
    Agrees scope locals types env → (∀ l ∈ scope, P.name l.name) → P.Nodes ns →
    CallsFit bundle (Inference.bodyCalls d loops ns) →
    Yields scope programs (nodeStmts s scope [] ns) fun body =>
      Tracks (runStmts (pkg.runner n) programs locals body)
        (Rendering.renderNodes bundle (bundle.runner n) types (toNames env) [] ns)

/-- The code of a block, with the block that follows it up to the depth. -/
theorem block_yields {n : Nat} (hbodies : ∀ m < n, BodiesTrack pkg bundle s P m)
    {scope : List Local} {programs : List Bytes} {locals : Env Closure} {types : Types}
    {env : Env (Joint pkg bundle n)} (hA : Agrees scope locals types env)
    (hscope : ∀ l ∈ scope, P.name l.name) (d : Definition) (loops : List Bytes) {ns : List Node}
    (hns : P.Nodes ns)
    (hcalls : CallsFit bundle (Inference.bodyCalls d loops ns)) :
    Yields scope programs (nodeStmts s scope [] ns) fun body =>
      ∃ j : Joint pkg bundle n, j.code = ⟨programs, body⟩ ∧ j.locals = locals ∧
        j.nodes = ⟨ns, types⟩ ∧ j.names = toNames env := by
  intro st hst hp
  refine ⟨⟨⟨programs, _⟩, locals, ⟨ns, types⟩, toNames env, fun m hm => ?_⟩, rfl, rfl, rfl, rfl⟩
  cases m with
  | zero =>
      intro p p' _ hx
      cases hx
  | succ m =>
      have htracks := hbodies m hm d loops ns (hA.lower (Nat.le_of_lt hm)) hscope hns hcalls st hst hp
      rw [toNames_lowerNames] at htracks
      exact htracks.body.follows

/-! ## Arguments -/

def handed (types : Types) (env : Env NodeBlock) (wanted : ParamType) :
    Arg → Page → Value NodeBlock × Page
  | .content _ _ body, p => (Rendering.convert (.block ⟨body, types⟩ env) .content wanted, p)
  | .text _ _ parts, p =>
      (Rendering.convert (.text (Rendering.textOf types env parts p).1) .text wanted,
        (Rendering.textOf types env parts p).2)
  | .expr _ _ e, p => converted types env e wanted p

theorem textOf_cancelled {β : Type} (types : Types) (env : Env β) (parts : List Part) (p : Page) :
    (Rendering.textOf types env parts p).2.cancelled = p.cancelled := by
  induction parts generalizing p with
  | nil => rfl
  | cons part parts ih =>
      cases part with
      | literal pos t => exact ih p
      | interpolation pos e => exact (ih _).trans (valueOf_cancelled types env e p)

theorem Passes.ofText [LawfulLanguage] {programs : List Bytes} {locals : Env Closure}
    {types : Types} {env : Env (Joint pkg bundle depth)} {t : Term} {parts : List Part}
    (h : EvaluatesText programs locals t (Rendering.textOf types env parts)) (wanted : ParamType) :
    Passes depth pkg bundle programs locals (if wanted == .content then .textContent t else t)
      wanted fun p => (Rendering.convert (.text (Rendering.textOf types (toNames env) parts p).1)
        .text wanted, (Rendering.textOf types (toNames env) parts p).2) := by
  intro p
  have htyped (t : Bytes) : Typed .text (.text t : Value (Joint pkg bundle depth)) := ⟨t, rfl⟩
  refine ⟨Rendering.convert (.text (Rendering.textOf types env parts p).1) .text wanted, _,
    typed_convert (htyped _) wanted, ?_, ?_, textOf_cancelled types env parts p⟩
  · cases wanted with
    | content =>
        simp only [beq_self_eq_true, if_true, termValue, h p]
        rfl
    | _ => exact h p
  · simp only [toNames, Rendering.textOf_expand]
    cases wanted <;> rfl

section

variable {n : Nat} {scope : List Local} {programs : List Bytes} {locals : Env Closure}
  {types : Types} {env : Env (Joint pkg bundle n)}

private theorem argCodes_cons [LawfulLanguage]
    (hexpr : ∀ e, P.expr e → Expression.ofSource e.source = .ok e)
    (hbodies : ∀ m < n, BodiesTrack pkg bundle s P m) (hA : Agrees scope locals types env)
    (hscope : ∀ l ∈ scope, P.name l.name) (d : Definition) (loops : List Bytes) {a : Arg}
    {as : List Arg} (ha : P.Arg a)
    (hcalls : CallsFit bundle (Inference.argCalls d loops (a :: as))) :
    ∃ code, argCodes s scope (a :: as) = (a.name, code) :: argCodes s scope as ∧
      ∀ wanted, ((∃ pos name body, a = .content pos name body) → wanted ≠ .text) →
        Yields scope programs (code wanted) fun t =>
          Passes n pkg bundle programs locals t wanted (handed types (toNames env) wanted a) := by
  cases a with
  | text pos name parts =>
      refine ⟨_, by rw [argCodes]; rfl, fun wanted _ => ?_⟩
      refine Yields.bind (quoted_adds scope parts)
        (quoted_yields hA fun pos e he => hexpr e (ha _ he)) (fun _ => Adds.pure _) fun t ht => ?_
      exact Yields.pure (Passes.ofText ht wanted)
  | expr pos name e =>
      refine ⟨_, by rw [argCodes]; rfl, fun wanted _ => ?_⟩
      refine Yields.bind (value_adds scope e) (value_yields hA (hexpr e ha)) (fun _ => Adds.pure _)
        fun code hcode => ?_
      exact Yields.pure (hcode.passes (hcode.handOver_evaluates wanted))
  | content pos name body =>
      refine ⟨_, by rw [argCodes]; rfl, fun wanted hwanted => ?_⟩
      refine Yields.bind (nodeStmts_adds s scope [] body)
        (block_yields hbodies hA hscope d loops ha fun c hc => hcalls c (by
          rw [Inference.argCalls]
          exact List.mem_append_left _ hc)) (fun _ => Adds.pure _) fun stmts hj => Yields.pure ?_
      obtain ⟨j, hcode, hlocals, hnodes, hnames⟩ := hj
      have htext : wanted ≠ .text := hwanted ⟨pos, name, body, rfl⟩
      refine fun p => ⟨.block j [], p, ?_, ?_, ?_, rfl⟩
      · cases wanted with
        | text => exact absurd rfl htext
        | content => rfl
        | unknown | value => trivial
      · rw [termValue, toCode, expand, hcode, hlocals]
      · rw [handed, toNodes, expand, hnodes, hnames]
        cases wanted with
        | text => exact absurd rfl htext
        | _ => rfl

theorem argFor_yields [LawfulLanguage] (hexpr : ∀ e, P.expr e → Expression.ofSource e.source = .ok e)
    (hbodies : ∀ m < n, BodiesTrack pkg bundle s P m) (hA : Agrees scope locals types env)
    (hscope : ∀ l ∈ scope, P.name l.name) (d : Definition) (loops : List Bytes) {args : List Arg}
    (hargs : P.Args args)
    (hcalls : CallsFit bundle (Inference.argCalls d loops args)) (name : Bytes) :
    (argFor (argCodes s scope args) name = none ∧ Arg.find? args name = none) ∨
      ∃ code a, argFor (argCodes s scope args) name = some code ∧ Arg.find? args name = some a ∧
        ∀ wanted, ((∃ pos name body, a = .content pos name body) → wanted ≠ .text) →
          Yields scope programs (code wanted) fun t =>
            Passes n pkg bundle programs locals t wanted (handed types (toNames env) wanted a) := by
  induction args with
  | nil => exact .inl ⟨by rw [argCodes]; rfl, rfl⟩
  | cons a as ih =>
      obtain ⟨code, hcons, hcode⟩ := argCodes_cons hexpr hbodies hA hscope d loops hargs.1 hcalls
      rw [hcons, argFor, Arg.find?]
      cases hname : a.name == name with
      | true => exact .inr ⟨code, a, by simp [hname], by simp [hname], hcode⟩
      | false =>
          have hrest := ih hargs.2 fun c hc => hcalls c (by
            cases a <;> simp only [Inference.argCalls, List.mem_append, hc, or_true])
          rw [argFor, Arg.find?] at hrest
          simpa [hname] using hrest

private theorem argument_of_some (types : Types) (env : Env NodeBlock) {args : List Arg}
    {param : Param} {a : Arg} (h : Arg.find? args param.name = some a) :
    Rendering.argument types env args param = handed types env param.type a := by
  funext p
  rw [Rendering.argument, h]
  cases a <;> rfl

private theorem argument_of_none (types : Types) (env : Env NodeBlock) {args : List Arg}
    {param : Param} {e : Expression} (h : Arg.find? args param.name = none)
    (he : param.default = some e) :
    Rendering.argument types env args param = converted [] env e param.type := by
  funext p
  rw [Rendering.argument, h]
  simp only [he]
  rfl

/-- Terms that hand the parameters of a tag joint values, as the renderer does. -/
def PassesAll (depth : Nat) (pkg : Package) (bundle : Bundle) (programs : List Bytes)
    (locals : Env Closure) (ts : List Term) (params : List Param)
    (given : Page → Env NodeBlock × Page) : Prop :=
  ∀ p, ∃ (vs : List (Value (Joint pkg bundle depth))) (q : Page),
    List.Forall₂ (fun param v => Typed param.type v) params vs ∧
    termValues programs locals ts p = (vs.map toCode, q) ∧
    given p = ((params.map (·.name)).zip (vs.map toNodes), q) ∧ q.cancelled = p.cancelled

theorem paramTerm_yields [LawfulLanguage] (hexpr : ∀ e, P.expr e → Expression.ofSource e.source = .ok e)
    (hbodies : ∀ m < n, BodiesTrack pkg bundle s P m) (hA : Agrees scope locals types env)
    (hscope : ∀ l ∈ scope, P.name l.name) (d : Definition) (loops : List Bytes) {args : List Arg}
    (hargs : P.Args args)
    (hcalls : CallsFit bundle (Inference.argCalls d loops args)) {params : List Param}
    (hcall : Callable params args) {param : Param} (hmem : param ∈ params)
    (hdefault : ∀ e, param.default = some e → DefaultFits P e) :
    Yields scope programs (paramTerm scope (argCodes s scope args) param) fun t =>
      Passes n pkg bundle programs locals t param.type
        (Rendering.argument types (toNames env) args param) := by
  rw [paramTerm]
  rcases argFor_yields hexpr hbodies hA hscope d loops hargs hcalls param.name with
    ⟨hcode, hfind⟩ | ⟨code, a, hcode, hfind, hyields⟩
  · obtain ⟨e, he⟩ := hcall.bound param hmem hfind
    have hfits := hdefault e he
    rw [hcode, argument_of_none types _ hfind he]
    refine defaultTerm_yields he hfits.read hfits.names (fun hb => ?_) env
    cases hl : lookup scope e.source with
    | none => rfl
    | some l =>
        have hname : l.name = e.source := by simpa using List.find?_some hl
        exact absurd (hname ▸ hscope l (List.mem_of_find?_eq_some hl)) (hfits.bare hb)
  · rw [hcode, argument_of_some types _ hfind]
    refine hyields param.type fun ⟨pos, name, body, ha⟩ => ?_
    exact hcall.content param hmem pos name body (ha ▸ hfind)

theorem arguments_yield {args : List Arg} {params : List Param}
    (h : ∀ param ∈ params,
      Yields scope programs (paramTerm scope (argCodes s scope args) param) fun t =>
        Passes n pkg bundle programs locals t param.type
          (Rendering.argument types (toNames env) args param)) :
    Yields scope programs (params.mapM (paramTerm scope (argCodes s scope args))) fun ts =>
      PassesAll n pkg bundle programs locals ts params
        (Rendering.arguments types (toNames env) args params) := by
  induction params with
  | nil => exact Yields.pure fun p => ⟨[], p, .nil, rfl, rfl, rfl⟩
  | cons param params ih =>
      rw [List.mapM_cons]
      have hadds := Adds.mapM fun (q : Param) (_ : q ∈ params) => paramTerm_adds (s := s) scope args q
      refine Yields.bind (paramTerm_adds scope args param) (h param (by simp))
        (fun _ => hadds.bind fun _ => Adds.pure _) fun t ht => ?_
      refine Yields.bind hadds (ih fun q hq => h q (by simp [hq])) (fun _ => Adds.pure _)
        fun ts hts => Yields.pure fun p => ?_
      obtain ⟨v, q, htyped, hcode, hnodes, hq⟩ := ht p
      obtain ⟨vs, q', hall, hcodes, hgiven, hq'⟩ := hts q
      refine ⟨v :: vs, q', .cons htyped hall, ?_, ?_, hq'.trans hq⟩
      · simp only [termValues, hcode, hcodes, List.map_cons]
      · simp only [Rendering.arguments, hnodes, hgiven, List.map_cons, List.zip_cons_cons]

end

end Code

end TagLoom

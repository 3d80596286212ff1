import TagLoom.Proofs.Code.Refinement
import TagLoom.Proofs.Code.Variables
import TagLoom.Proofs.Compilation.Names

/-!
# Scopes of generated functions

Every node of an accepted tag has its code in the function of the tag, inside of as many loops as
are around the node.  There a name stands for the variable of the innermost loop that binds the
name, or else for that of the parameter.
-/

namespace TagLoom.Code

open Compilation
open Inference (CallSite bodyCalls enterLoop)
open Layout (entryName)

/-! ## Statements inside of code -/

/-- A statement stands among some statements or anywhere inside them.  The first list holds the
variables of the loops around those statements, the second the ones around the statement. -/
inductive Stmt.Inside : List (Bytes × Option Bytes) → List Stmt → List (Bytes × Option Bytes) →
    Stmt → Prop where
  | here {loops ss t} (h : t ∈ ss) : Inside loops ss loops t
  | yes {loops ss inner t c u body other} (h : .branch c u body other ∈ ss)
      (ht : Inside loops body inner t) : Inside loops ss inner t
  | no {loops ss inner t c u body other} (h : .branch c u body (some other) ∈ ss)
      (ht : Inside loops other inner t) : Inside loops ss inner t
  | each {loops ss inner t entry u item index body} (h : .each entry u item index body ∈ ss)
      (ht : Inside ((item, index) :: loops) body inner t) : Inside loops ss inner t
  | block {loops ss inner t f args body} (h : .call f args ∈ ss) (hbody : .block body ∈ args)
      (ht : Inside loops body inner t) : Inside loops ss inner t

theorem Stmt.Inside.declares {loops inner : List (Bytes × Option Bytes)} {ss : List Stmt} {t : Stmt}
    (h : Stmt.Inside loops ss inner t) :
    ∀ p ∈ inner, p ∈ loops ∨ p.1 :: p.2.toList ⊆ variablesOfStmts ss := by
  induction h with
  | here => exact fun p hp => .inl hp
  | @yes _ ss _ _ c u body other h _ ih =>
      have hbody : variablesOfStmts body ⊆ variablesOfStmts ss := by
        refine fun id hid => Stmt.variables_subset h ?_
        rw [Stmt.variables.eq_def]
        exact List.mem_append_left _ (List.mem_append_right _ hid)
      exact fun p hp => (ih p hp).imp_right fun hsub => List.Subset.trans hsub hbody
  | @no _ ss _ _ c u body other h _ ih =>
      have hother : variablesOfStmts other ⊆ variablesOfStmts ss := fun id hid =>
        Stmt.variables_subset h (List.mem_append_right _ hid)
      exact fun p hp => (ih p hp).imp_right fun hsub => List.Subset.trans hsub hother
  | @each loops ss _ _ entry u item index body h _ ih =>
      have hloop : item :: (index.toList ++ variablesOfStmts body) ⊆ variablesOfStmts ss := by
        refine fun id hid => Stmt.variables_subset h ?_
        rw [Stmt.variables]
        exact List.mem_append_right _ hid
      intro p hp
      rcases ih p hp with hmem | hsub
      · rcases List.mem_cons.1 hmem with rfl | hmem
        · exact .inr (List.Subset.trans
            (List.cons_subset_cons _ (List.subset_append_left _ _)) hloop)
        · exact .inl hmem
      · exact .inr fun id hid =>
          hloop (List.mem_cons_of_mem _ (List.mem_append_right _ (hsub hid)))
  | @block _ ss _ _ f args body h hbody _ ih =>
      have hblock : variablesOfStmts body ⊆ variablesOfStmts ss := fun id hid =>
        Stmt.variables_subset h (Term.variables_subset hbody hid)
      exact fun p hp => (ih p hp).imp_right fun hsub => List.Subset.trans hsub hblock

/-- The names that a loop binds, each with its variable. -/
structure Loop where
  item : Bytes × Bytes
  index : Option (Bytes × Bytes)

namespace Loop

def names (l : Loop) : List Bytes := l.item.1 :: (l.index.map (·.1)).toList

def ids (l : Loop) : Bytes × Option Bytes := (l.item.2, l.index.map (·.2))

def pairs (l : Loop) : List (Bytes × Bytes) := l.index.toList ++ [l.item]

def locals (l : Loop) : List Local := l.pairs.map fun p => ⟨p.1, p.2, .value⟩

end Loop

def pairFor (pairs : List (Bytes × Bytes)) (name : Bytes) : Option Bytes :=
  (pairs.find? (·.1 == name)).map (·.2)

/-- The variable that a name stands for inside of loops, the innermost first: that of the first loop
that binds the name, or else that of the parameter. -/
def variableOf (loops : List Loop) (params : List (Bytes × Bytes)) (name : Bytes) : Option Bytes :=
  match loops.findSome? fun l => pairFor l.pairs name with
  | some id => some id
  | none => pairFor params name

def scopeIn (loops : List Loop) (params : List Local) : List Local :=
  loops.flatMap Loop.locals ++ params

theorem lookup_eq_pairFor (scope : List Local) (name : Bytes) :
    (lookup scope name).map (·.id) = pairFor (scope.map fun l => (l.name, l.id)) name := by
  rw [lookup, pairFor, List.find?_map, Option.map_map]
  rfl

theorem pairFor_append (ps qs : List (Bytes × Bytes)) (name : Bytes) :
    pairFor (ps ++ qs) name = (pairFor ps name).or (pairFor qs name) := by
  rw [pairFor, List.find?_append, Option.map_or]
  rfl

theorem lookup_scopeIn (loops : List Loop) (params : List Local) (name : Bytes) :
    (lookup (scopeIn loops params) name).map (·.id) =
      variableOf loops (params.map fun l => (l.name, l.id)) name := by
  rw [lookup_eq_pairFor, scopeIn, variableOf]
  induction loops with
  | nil => rfl
  | cons l loops ih =>
      have hpairs : l.locals.map (fun l => (l.name, l.id)) = l.pairs := by
        simp [Loop.locals, Function.comp_def]
      rw [List.flatMap_cons, List.append_assoc, List.map_append, pairFor_append, ih, hpairs,
        List.findSome?_cons]
      cases pairFor l.pairs name <;> rfl

/-! ## The code of a node -/

variable {s : Setting} {scope : List Local} {params : List Local} {n : Node} {ns : List Node}

theorem mem_flushed {pending : Bytes} {t : Stmt} {rest : List Stmt} (h : t ∈ rest) :
    t ∈ flushed pending rest := by
  unfold flushed
  split
  · exact h
  · exact List.mem_cons_of_mem _ h

theorem exists_mem_nodeStmts (s : Setting) (scope : List Local) (hn : n ∈ ns)
    (hliteral : ∀ pos t, n ≠ .literal pos t) (pending : Bytes) (st : EmitState) :
    ∃ st', ((nodeStmt s scope n).run st').1 ∈ ((nodeStmts s scope pending ns).run st).1 := by
  induction ns generalizing pending st with
  | nil => cases hn
  | cons m ns ih =>
      have hcons (hm : ∀ pos t, m = .literal pos t → False) :
          ∃ st', ((nodeStmt s scope n).run st').1 ∈
            ((nodeStmts s scope pending (m :: ns)).run st).1 := by
        rw [nodeStmts.eq_3 _ _ _ _ _ hm]
        rcases List.mem_cons.1 hn with rfl | hn
        · exact ⟨st, mem_flushed List.mem_cons_self⟩
        · obtain ⟨st', hmem⟩ := ih hn [] ((nodeStmt s scope m).run st).2
          exact ⟨st', mem_flushed (List.mem_cons_of_mem _ hmem)⟩
      cases m with
      | literal pos t =>
          rw [nodeStmts]
          exact ih ((List.mem_cons.1 hn).resolve_left (hliteral pos t)) (pending ++ t) st
      | _ => exact hcons (by simp)

theorem exists_nodeStmt_cond (pos : Pos) (e : Expression) (body : List Node)
    (other : Option (List Node)) (st : EmitState) : ∃ c u yes no,
      ((nodeStmt s scope (.cond pos e body other)).run st).1 = .branch c u yes no ∧
      (∃ st', yes = ((nodeStmts s scope [] body).run st').1) ∧
      ∀ nodes, other = some nodes → ∃ st', no = some ((nodeStmts s scope [] nodes).run st').1 := by
  rw [nodeStmt]
  cases other with
  | none => exact ⟨_, _, _, _, rfl, ⟨_, rfl⟩, fun _ h => nomatch h⟩
  | some nodes =>
      refine ⟨_, _, _, _, rfl, ⟨_, rfl⟩, fun nodes' h => ?_⟩
      cases h
      exact ⟨_, rfl⟩

theorem exists_nodeStmt_loop (pos : Pos) (e : Expression) (item index : Bytes) (body : List Node)
    (st : EmitState) : ∃ (l : Loop) (entry : Nat) (u : Term) (st' : EmitState),
      ((nodeStmt s scope (.loop pos e item index body)).run st).1 =
        .each entry u l.ids.1 l.ids.2 ((nodeStmts s (l.locals ++ scope) [] body).run st').1 ∧
      ∀ names, l.names ++ names = enterLoop names item index := by
  cases hindex : index.isEmpty with
  | true =>
      rw [List.isEmpty_iff.1 hindex, nodeStmt_loop_nil]
      exact ⟨⟨(item, _), none⟩, _, _, _, rfl, fun _ => rfl⟩
  | false =>
      rw [nodeStmt_loop_cons s scope pos e item hindex]
      refine ⟨⟨(item, _), some (index, _)⟩, _, _, _, rfl, fun names => ?_⟩
      rw [enterLoop, hindex]
      rfl

/-! ## Blocks of calls -/

def paramsIn (s : Setting) (tag : Bytes) : List Param :=
  ((Signature.find? s.signatures tag).map (·.params)).getD []

/-- A call hands each of its arguments to a parameter of its own, and no block to a built-in
element. -/
structure HandsEach (s : Setting) (c : CallSite) : Prop where
  builtin : ∀ b, Builtin.find? c.name = some b → ∀ a ∈ c.args, Inference.Arg.isContent a = false
  known : Builtin.find? c.name = none → ∀ a ∈ c.args, ∃ p ∈ paramsIn s c.name, p.name = a.name
  once : Builtin.find? c.name = none → (c.args.map Arg.name).Nodup

theorem exists_mem_mapM {α β : Type} {f : α → Emit β} {x : α} {xs : List α} (hx : x ∈ xs)
    (st : EmitState) : ∃ st', ((f x).run st').1 ∈ ((xs.mapM f).run st).1 := by
  induction xs generalizing st with
  | nil => cases hx
  | cons y ys ih =>
      rw [List.mapM_cons]
      rcases List.mem_cons.1 hx with rfl | hx
      · exact ⟨st, List.mem_cons_self⟩
      · obtain ⟨st', hmem⟩ := ih hx ((f y).run st).2
        exact ⟨st', List.mem_cons_of_mem _ hmem⟩

theorem argFor_content {args : List Arg} {q : Pos} {name : Bytes} {body : List Node}
    (h : .content q name body ∈ args) (honce : (args.map Arg.name).Nodup) :
    argFor (argCodes s scope args) name =
      some fun _ => do return .block (← nodeStmts s scope [] body) := by
  induction args with
  | nil => cases h
  | cons a args ih =>
      rw [List.map_cons, List.nodup_cons] at honce
      rcases List.mem_cons.1 h with rfl | hmem
      · simp [argCodes, argFor]
      · have hne : a.name ≠ name := fun heq =>
          honce.1 (List.mem_map.2 ⟨_, hmem, heq.symm⟩)
        have hskip : argFor (argCodes s scope (a :: args)) name =
            argFor (argCodes s scope args) name := by
          cases a with
          | _ =>
              rw [argCodes, argFor, argFor, List.find?_cons_of_neg (by simpa [Arg.name] using hne)]
        rw [hskip, ih hmem honce.2]

theorem exists_nodeStmt_block {pos q : Pos} {tag name : Bytes} {args : List Arg} {body : List Node}
    {caller file : Bytes} {around : List Bytes}
    (hcall : HandsEach s ⟨caller, file, around, pos, tag, args⟩) (h : .content q name body ∈ args)
    (st : EmitState) : ∃ f ts st',
      ((nodeStmt s scope (.invocation pos tag args)).run st).1 = .call f ts ∧
      .block ((nodeStmts s scope [] body).run st').1 ∈ ts := by
  rw [nodeStmt]
  cases hbuiltin : Builtin.find? tag with
  | some b => exact absurd (hcall.builtin b hbuiltin _ h) (by simp [Inference.Arg.isContent])
  | none =>
      obtain ⟨p, hp, hname⟩ := hcall.known hbuiltin _ h
      have hname : p.name = name := hname
      obtain ⟨st', hmem⟩ :=
        exists_mem_mapM (f := fun p => paramTerm scope (argCodes s scope args) p) hp st
      rw [paramTerm, hname, argFor_content h (hcall.once hbuiltin)] at hmem
      exact ⟨_, _, st', rfl, hmem⟩

/-! ## Nodes inside of a body -/

/-- Every node inside of nodes has its statement inside of their code, under the variables of the
loops around it, and is emitted in the scope of these loops. -/
theorem exists_inside {names inner : List Bytes} (d : Definition)
    (h : Node.Inside names ns inner n) (hliteral : ∀ pos t, n ≠ .literal pos t)
    {loops : List Loop} (hnames : loops.flatMap Loop.names = names)
    (hcalls : ∀ c ∈ bodyCalls d names ns, HandsEach s c) (pending : Bytes) (st : EmitState) :
    ∃ loops' st', loops'.flatMap Loop.names = inner ∧
      Stmt.Inside (loops.map Loop.ids)
        ((nodeStmts s (scopeIn loops params) pending ns).run st).1 (loops'.map Loop.ids)
        ((nodeStmt s (scopeIn loops' params) n).run st').1 := by
  -- along the way to the node; the loops passed so far make up the scope
  induction h generalizing loops pending st with
  | here hn =>
      obtain ⟨st', hmem⟩ := exists_mem_nodeStmts s (scopeIn loops params) hn hliteral pending st
      exact ⟨loops, st', hnames, .here hmem⟩
  | @yes _ _ _ _ pos e body other hm _ ih =>
      obtain ⟨st₁, hmem⟩ := exists_mem_nodeStmts s (scopeIn loops params) hm (by simp) pending st
      obtain ⟨c, u, yes, no, hstmt, ⟨st₂, rfl⟩, -⟩ := exists_nodeStmt_cond pos e body other st₁
      rw [hstmt] at hmem
      obtain ⟨loops', st', hinner, hinside⟩ := ih hliteral hnames (fun c hc => hcalls c (by
        refine Inference.mem_bodyCalls hm c ?_
        cases other with
        | none => exact hc
        | some other => exact List.mem_append_left _ hc)) [] st₂
      exact ⟨loops', st', hinner, .yes hmem hinside⟩
  | @no _ _ _ _ pos e body other hm _ ih =>
      obtain ⟨st₁, hmem⟩ := exists_mem_nodeStmts s (scopeIn loops params) hm (by simp) pending st
      obtain ⟨c, u, yes, no, hstmt, -, hno⟩ := exists_nodeStmt_cond pos e body (some other) st₁
      obtain ⟨st₂, rfl⟩ := hno other rfl
      rw [hstmt] at hmem
      obtain ⟨loops', st', hinner, hinside⟩ := ih hliteral hnames (fun c hc => hcalls c
        (Inference.mem_bodyCalls hm c (List.mem_append_right _ hc))) [] st₂
      exact ⟨loops', st', hinner, .no hmem hinside⟩
  | @loop around _ _ _ pos e item index body hm _ ih =>
      obtain ⟨st₁, hmem⟩ := exists_mem_nodeStmts s (scopeIn loops params) hm (by simp) pending st
      obtain ⟨l, entry, u, st₂, hstmt, hloop⟩ := exists_nodeStmt_loop pos e item index body st₁
      rw [hstmt] at hmem
      have hnames' : (l :: loops).flatMap Loop.names = enterLoop around item index := by
        rw [List.flatMap_cons, hnames, hloop]
      obtain ⟨loops', st', hinner, hinside⟩ := ih hliteral hnames'
        (fun c hc => hcalls c (Inference.mem_bodyCalls hm c hc)) [] st₂
      have hscope : scopeIn (l :: loops) params = l.locals ++ scopeIn loops params := by
        rw [scopeIn, List.flatMap_cons, List.append_assoc]
        rfl
      rw [hscope] at hinside
      exact ⟨loops', st', hinner, .each hmem hinside⟩
  | @block _ _ _ _ pos tag args q a body hm ha _ ih =>
      obtain ⟨st₁, hmem⟩ := exists_mem_nodeStmts s (scopeIn loops params) hm (by simp) pending st
      obtain ⟨f, ts, st₂, hstmt, hblock⟩ := exists_nodeStmt_block
        (hcalls _ (Inference.mem_bodyCalls hm _ List.mem_cons_self)) ha st₁
      rw [hstmt] at hmem
      obtain ⟨loops', st', hinner, hinside⟩ := ih hliteral hnames (fun c hc => hcalls c
        (Inference.mem_bodyCalls hm c (List.mem_cons_of_mem _ (Inference.mem_argCalls ha c hc)))) [] st₂
      exact ⟨loops', st', hinner, .block hmem hblock hinside⟩

/-! ## Accepted sources -/

variable {files : List SourceFile}

theorem handsEach_placeCall (h : Accepted files) {d : Definition} (hd : d ∈ (builtTags files).defs)
    (t : Placement.Subject) {c : CallSite} (hc : c ∈ Inference.callSites d) :
    HandsEach (settingOf (tagsOf files) (signaturesOf files)) (Placement.placeCall t c) where
  builtin := fun b hb => ((resolved_placeCall h hd t hc).builtin b hb).2
  known := by
    intro hb a ha
    obtain ⟨-, hname, hcheck⟩ := checked_call h hd hc hb
    obtain ⟨hknown, -, -⟩ := Inference.names_of_checkCall hcheck
    have hmem : a.name ∈ c.args.map Arg.name := by
      rw [← Placement.map_name_placeArgs t c.scope c.name c.args]
      exact List.mem_map.2 ⟨a, ha, rfl⟩
    obtain ⟨a', ha', heq⟩ := List.mem_map.1 hmem
    obtain ⟨p, hp⟩ := Option.isSome_iff_exists.1 (hknown a' ha')
    refine ⟨p, ?_, ?_⟩
    · have hparams : paramsIn (settingOf (tagsOf files) (signaturesOf files)) c.name =
          paramsOf files c.name := params_signaturesOf hname
      show p ∈ paramsIn _ c.name
      rw [hparams]
      exact List.mem_of_find?_eq_some hp
    · rw [← heq]
      simpa using List.find?_some hp
  once := by
    intro hb
    obtain ⟨-, -, hcheck⟩ := checked_call h hd hc hb
    obtain ⟨-, honce, -⟩ := Inference.names_of_checkCall hcheck
    exact (Placement.map_name_placeArgs t c.scope c.name c.args).symm ▸ honce

/-- A variable of a function is nothing else in the package: no word of the language, no name that
generated code has for something of its own, and nothing that the package declares. -/
structure Unclaimed (files : List SourceFile) (id : Bytes) : Prop where
  keyword : id ∉ keywords
  predeclared : id ∉ predeclared
  registry : id ≠ Name.reserved
  function : ∀ e ∈ (tagsOf files).defs, id ≠ Name.exported e.name
  entry : ∀ n, id ≠ entryName n
  program : id ∉ (packageOf files).variableNames

theorem IsFree.unclaimed {id : Bytes}
    (h : IsFree (settingOf (tagsOf files) (signaturesOf files)).functions id) :
    Unclaimed files id := by
  have hfunctions : ∀ f ∈ (settingOf (tagsOf files) (signaturesOf files)).functions,
      f.getLast? ≠ some underscore := by
    intro f hf hlast
    obtain ⟨e, -, rfl⟩ := List.mem_map.1 hf
    exact Name.underscore_not_mem_exported e.name (List.mem_of_getLast? hlast)
  obtain ⟨hkeyword, hpredeclared, hregistry, hfunction⟩ := h.ne_reserved hfunctions
  refine ⟨hkeyword, hpredeclared, hregistry, fun e he heq => ?_, h.ne_numbered (by decide), ?_⟩
  · exact hfunction (heq ▸ List.mem_map.2 ⟨e, he, rfl⟩)
  · intro hmem
    have hprepared {name : Bytes} {programs : List Bytes} (hname : IsExprName name) :
        id ∉ preparedNames name programs := fun hid =>
      have ⟨n, _, heq⟩ := mem_preparedNames.1 hid
      h.ne_numbered hname.1 n heq
    rcases List.mem_append.1 hmem with hmem | hmem
    · obtain ⟨file, hfile, hid⟩ := List.mem_flatMap.1 hmem
      exact hprepared (exprName_ofPass file hfile ▸ isExprName_exprName file.path) hid
    · exact hprepared isExprName_registry hmem

theorem exists_scope (s : Setting) (before : List Bytes) (d : Definition) : ∃ scope st,
    scope.map (·.name) = (loaded s.signatures d).params.map (·.name) ∧
    (function s before d).1.params.map (·.1) = scope.map (·.id) ∧
    (function s before d).1.body = ((nodeStmts s scope [] d.body).run st).1 := by
  obtain ⟨renders, hf⟩ := function_eq s before d
  let params := (loaded s.signatures d).params.mapM (declareParam s)
  have hnames := declareParams_names s (loaded s.signatures d).params ⟨before, [], 0⟩ (by simp)
    (List.prefix_refl _)
  refine ⟨(params.run ⟨before, [], 0⟩).1, (params.run ⟨before, [], 0⟩).2, hnames, ?_, ?_⟩
  · rw [hf, List.map_map]
    rfl
  · rw [hf]
    rfl

/-- The function of an accepted tag declares every variable once, and none that is something else in
the package.  And wherever a node stands in the tag, its code stands in the function, inside of as
many loops, and is emitted where a name stands for the variable of the innermost of these loops that
binds it, or else for that of the parameter. -/
theorem variables_free_and_scoped (h : Accepted files) {d : Definition}
    (hd : d ∈ (tagsOf files).defs) :
    ∃ programs f,
      (packageOf files).function? (Name.exported d.name) = some (programs, f) ∧
      f.variables.Nodup ∧
      (∀ id ∈ f.variables, Unclaimed files id) ∧
      ∀ inner n, Node.Inside [] d.body inner n → (∀ pos t, n ≠ .literal pos t) →
        ∃ loops scope st,
          loops.flatMap Loop.names = inner ∧
          (∀ l ∈ loops, ∀ p ∈ l.pairs, p.2 ∈ variablesOfStmts f.body) ∧
          Stmt.Inside [] f.body (loops.map Loop.ids)
            ((nodeStmt (settingOf (tagsOf files) (signaturesOf files)) scope n).run st).1 ∧
          ∀ name, (lookup scope name).map (·.id) =
            variableOf loops (((paramsOf files d.name).map (·.name)).zip (f.params.map (·.1))) name := by
  let s := settingOf (tagsOf files) (signaturesOf files)
  obtain ⟨programs, before, hfunction, -⟩ :=
    @exists_function?_ofPass _ (signaturesOf files) (distinct_tagsOf h) d hd
  obtain ⟨hnodup, hfree⟩ := variables_function s before d
  obtain ⟨params, st₀, hnames, hids, hbody⟩ := exists_scope s before d
  generalize (function s before d).1 = f at hfunction hnodup hfree hids hbody
  refine ⟨programs, f, hfunction, hnodup, fun id hid => (hfree id hid).unclaimed,
    fun inner n hinside hliteral => ?_⟩
  rw [defs_tagsOf] at hd
  obtain ⟨e, he, rfl⟩ := List.mem_map.1 hd
  have hparams : (loaded s.signatures (Placement.placeDefinition (signaturesOf files) e).1).params =
      paramsOf files e.name := params_signaturesOf (List.mem_map.2 ⟨e, he, rfl⟩)
  have hpairs : ((paramsOf files e.name).map (·.name)).zip (f.params.map (·.1)) =
      params.map fun l => (l.name, l.id) := by
    rw [hids, ← hparams, ← hnames, List.zip_map']
  have hcalls : ∀ c ∈ bodyCalls e [] (Placement.placeDefinition (signaturesOf files) e).1.body,
      HandsEach s c := by
    intro c hc
    rw [Placement.placeDefinition, Placement.bodyCalls_placeNodes] at hc
    obtain ⟨site, hsite, rfl⟩ := List.mem_map.1 hc
    exact handsEach_placeCall h he _ hsite
  obtain ⟨loops, st, hinner, hstmt⟩ :=
    @exists_inside s params _ _ _ _ e hinside hliteral [] rfl hcalls [] st₀
  have hstmt : Stmt.Inside [] f.body (loops.map Loop.ids)
      ((nodeStmt s (scopeIn loops params) n).run st).1 := hbody ▸ hstmt
  refine ⟨loops, scopeIn loops params, st, hinner, fun l hl p hp => ?_, hstmt, fun name => ?_⟩
  · have hdeclared := (hstmt.declares l.ids (List.mem_map.2 ⟨l, hl, rfl⟩)).resolve_left
      List.not_mem_nil
    rcases List.mem_append.1 hp with hp | hp
    · rw [Option.mem_toList] at hp
      refine hdeclared (List.mem_cons_of_mem _ ?_)
      rw [Loop.ids, hp]
      exact List.mem_singleton_self _
    · rw [List.mem_singleton.1 hp]
      exact hdeclared List.mem_cons_self
  · rw [lookup_scopeIn, ← hpairs]
    rfl

/-! ## A page with a loop -/

def rowsPlaced : Definition :=
  ⟨"rows", true, ⟨1, 1⟩, [⟨⟨1, 1⟩, "title", .unknown, none⟩], [
    .interpolation ⟨1, 24⟩ ⟨"row", .name 0 "row"⟩ (some .html),
    .loop ⟨1, 29⟩ ⟨"rows", .name 0 "rows"⟩ "row" "" [
      .interpolation ⟨1, 57⟩ ⟨"row", .name 0 "row"⟩ (some .html),
      .interpolation ⟨1, 62⟩ ⟨"mark + title",
        .binary 5 .add (.name 0 "mark") (.name 7 "title")⟩ (some .html)]], "rows", "rows"⟩

theorem defs_rowsPage : (tagsOf [rowsPage]).defs = [rowsPlaced] := by
  rw [tagsOf, templatesOf_rowsPage]
  cbv

/-- The item of the loop has the name of a parameter, and another variable. -/
theorem variables_free_and_scoped_rowsPage :
    Accepted [rowsPage] ∧ rowsPlaced ∈ (tagsOf [rowsPage]).defs ∧
    ∃ programs f,
      (packageOf [rowsPage]).function? "Rows" = some (programs, f) ∧
      f.variables = (["title", "row", "rows", "mark", "row_"] : List Bytes) ∧
      f.variables.Nodup ∧ (∀ id ∈ f.variables, Unclaimed [rowsPage] id) ∧
      ∃ scope st, Stmt.Inside [] f.body [("row_", none)]
        ((nodeStmt (settingOf (tagsOf [rowsPage]) (signaturesOf [rowsPage])) scope
          (.interpolation ⟨1, 57⟩ ⟨"row", .name 0 "row"⟩ (some .html))).run st).1 ∧
        (lookup scope "row").map (·.id) = some "row_" ∧
        (lookup scope "mark").map (·.id) = some "mark" := by
  have hd : rowsPlaced ∈ (tagsOf [rowsPage]).defs := defs_rowsPage ▸ List.mem_singleton_self _
  have hcode : ((packageOf [rowsPage]).function? "Rows").map
        (fun f => (f.2.params.map (·.1), variablesOfStmts f.2.body)) =
      some ((["title", "row", "rows", "mark"] : List Bytes), (["row_"] : List Bytes)) := by
    rw [packageOf, tagsOf, signaturesOf, templatesOf_rowsPage]
    decide +kernel
  have hnames : (paramsOf [rowsPage] rowsPlaced.name).map (·.name) =
      (["title", "row", "rows", "mark"] : List Bytes) := by
    rw [paramsOf, builtTags, templatesOf_rowsPage]
    decide +kernel
  obtain ⟨programs, f, hf, hnodup, hfree, hscoped⟩ := variables_free_and_scoped accepted_rowsPage hd
  have hname : Name.exported rowsPlaced.name = "Rows" := by decide
  rw [hname] at hf
  rw [hf, Option.map_some, Option.some.injEq, Prod.mk.injEq] at hcode
  obtain ⟨hparams, hbody⟩ := hcode
  obtain ⟨loops, scope, st, hloops, hdeclared, hinside, hlookup⟩ := hscoped ["row"]
    (.interpolation ⟨1, 57⟩ ⟨"row", .name 0 "row"⟩ (some .html))
    (.loop (List.mem_cons_of_mem _ List.mem_cons_self) (.here List.mem_cons_self)) (by simp)
  -- One loop is around the node; its item is the only variable that the body declares.
  obtain ⟨⟨⟨name, id⟩, index⟩, rfl⟩ : ∃ l, loops = [l] := by
    rcases loops with _ | ⟨l, _ | ⟨m, rest⟩⟩
    · simp at hloops
    · exact ⟨l, rfl⟩
    · simp [Loop.names] at hloops
  obtain ⟨rfl, rfl⟩ : name = "row" ∧ index = none := by
    cases index <;> simp_all [Loop.names]
  obtain rfl : id = "row_" := by
    have hid : id ∈ variablesOfStmts f.body :=
      hdeclared _ List.mem_cons_self ("row", id) List.mem_cons_self
    exact List.mem_singleton.1 (hbody ▸ hid)
  rw [hparams, hnames] at hlookup
  refine ⟨accepted_rowsPage, hd, programs, f, hf, ?_, hnodup, hfree, scope, st, hinside, ?_, ?_⟩
  · rw [Function.variables, hparams, hbody]
    rfl
  · exact hlookup "row"
  · exact hlookup "mark"

end TagLoom.Code

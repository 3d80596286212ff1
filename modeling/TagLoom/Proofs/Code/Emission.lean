import TagLoom.Code.Emit
import TagLoom.Proofs.Bytes.Text
import TagLoom.Proofs.Stateful

/-!
# What emission keeps

Emitting code only adds prepared expressions and variables: numbers and names given out stay good.
-/

namespace TagLoom.Code

/-- A later state of emission: prepared expressions keep their numbers, variables stay in use. -/
structure Grows (st st' : EmitState) : Prop where
  programs : st.programs <+: st'.programs
  used : ∀ id ∈ st.used, id ∈ st'.used

theorem Grows.refl (st : EmitState) : Grows st st := ⟨List.prefix_refl _, fun _ h => h⟩

theorem Grows.trans {a b c : EmitState} (hab : Grows a b) (hbc : Grows b c) : Grows a c :=
  ⟨hab.programs.trans hbc.programs, fun id h => hbc.used id (hab.used id h)⟩

/-- An emission that ends in a later state. -/
def Adds {α : Type} (x : Emit α) : Prop := ∀ st, Grows st (x.run st).2

section

variable {α β : Type}

theorem Adds.pure (a : α) : Adds (pure a : Emit α) := fun st => Grows.refl st

theorem Adds.bind {x : Emit α} {k : α → Emit β} (hx : Adds x) (hk : ∀ a, Adds (k a)) :
    Adds (x >>= k) :=
  fun st => (hx st).trans (hk _ _)

theorem Adds.map {x : Emit α} (f : α → β) (hx : Adds x) : Adds (f <$> x) := hx

theorem Adds.mapM {f : α → Emit β} {xs : List α} (hf : ∀ x ∈ xs, Adds (f x)) :
    Adds (xs.mapM f) := by
  induction xs with
  | nil => exact Adds.pure []
  | cons x xs ih =>
      rw [List.mapM_cons]
      exact (hf x (by simp)).bind fun y =>
        (ih fun z hz => hf z (by simp [hz])).bind fun ys => Adds.pure _

end

/-! ## Variables and prepared expressions -/

theorem program_adds (source : Bytes) : Adds (program source) := by
  intro st
  simp only [program, StateT.run_bind, StateT.run_get, pure_bind]
  split
  · exact Grows.refl st
  · exact ⟨List.prefix_append _ _, fun _ h => h⟩

theorem program_spec (source : Bytes) (st : EmitState) :
    ((program source).run st).2.programs[((program source).run st).1]? = some source := by
  simp only [program, StateT.run_bind, StateT.run_get, pure_bind]
  split
  · rename_i i hi
    obtain ⟨hlt, heq, -⟩ := List.findIdx?_eq_some_iff_getElem.1 hi
    simpa [StateT.run, pure, StateT.pure, hlt] using heq
  · exact List.getElem?_concat_length

theorem declare_adds (s : Setting) (name : Bytes) : Adds (declare s name) :=
  fun _ => ⟨List.prefix_refl _, fun _ h => List.mem_append_left _ h⟩

theorem declare_mem (s : Setting) (name : Bytes) (st : EmitState) :
    ((declare s name).run st).1 ∈ ((declare s name).run st).2.used :=
  List.mem_append_right _ (List.mem_singleton_self _)

private def padded (id : Bytes) (n : Nat) : Bytes := id ++ List.replicate n '_'.toUInt8

private theorem padded_underscore (id : Bytes) (n : Nat) :
    padded (id ++ "_") n = padded id (n + 1) := by
  have h : Bytes.ofString "_" = ['_'.toUInt8] := by decide
  rw [padded, padded, h, List.append_assoc, List.singleton_append, List.replicate_succ]

private theorem padded_mem_of_freshen_mem {used : List Bytes} {fuel : Nat} {id : Bytes}
    (h : freshen used fuel id ∈ used) : ∀ n ≤ fuel, padded id n ∈ used := by
  induction fuel generalizing id with
  | zero =>
      intro n hn
      rw [Nat.le_zero.1 hn]
      simpa [freshen, padded] using h
  | succ fuel ih =>
      rw [freshen] at h
      split at h
      · rename_i hid
        intro n hn
        cases n with
        | zero => simpa [padded] using hid
        | succ n => 
            rw [← padded_underscore]
            exact ih h n (by omega)
      · simp_all

private theorem nodup_padded (id : Bytes) (n : Nat) :
    ((List.range n).map (padded id)).Nodup := by
  refine List.pairwise_map.2 (List.nodup_range.imp fun hne heq => hne ?_)
  simpa [padded] using congrArg List.length heq

theorem freshen_not_mem (used : List Bytes) (id : Bytes) :
    freshen used (used.length + 1) id ∉ used := by
  intro h
  have hsub : (List.range (used.length + 2)).map (padded id) ⊆ used := by
    intro x hx
    obtain ⟨n, hn, rfl⟩ := List.mem_map.1 hx
    exact padded_mem_of_freshen_mem h n (by have := List.mem_range.1 hn; omega)
  have hle := (nodup_padded id _).length_le_of_subset hsub
  simp only [List.length_map, List.length_range] at hle
  omega

theorem declare_fresh (s : Setting) (name : Bytes) (st : EmitState) :
    ((declare s name).run st).1 ∉ st.used :=
  freshen_not_mem st.used _

/-! ## Code -/

theorem value_adds (scope : List Local) (e : Expression) : Adds (value scope e) := by
  unfold value
  split
  · exact Adds.pure _
  · split
    · exact Adds.pure _
    · exact (program_adds _).bind fun _ => Adds.pure _

theorem partTerm_adds (scope : List Local) (part : Part) : Adds (partTerm scope part) := by
  cases part with
  | literal pos s => exact Adds.pure _
  | interpolation pos e => exact (value_adds scope e).bind fun _ => Adds.pure _

/-- What reads no names is emitted alike in any scope that does not have its text as a name. -/
theorem value_nil {scope : List Local} {e : Expression} (hnames : e.names = [])
    (hscope : e.isBare → lookup scope e.source = none) : value scope e = value [] e := by
  have hlookup : (if e.isBare then lookup scope e.source else none) =
      if e.isBare then lookup [] e.source else none := by
    split
    · rename_i hb
      rw [hscope hb]
      rfl
    · rfl
  rw [value, value, hlookup, envOf, envOf, hnames]
  rfl

theorem quoted_adds (scope : List Local) (parts : List Part) : Adds (quoted scope parts) := by
  refine (Adds.mapM fun p _ => partTerm_adds scope p).bind fun ts => ?_
  split <;> exact Adds.pure _

theorem defaultTerm_adds (scope : List Local) (p : Param) : Adds (defaultTerm scope p) := by
  unfold defaultTerm
  split
  · exact Adds.pure _
  · refine (value_adds scope _).bind fun v => ?_
    obtain ⟨t, type⟩ := v
    cases p.type <;> exact Adds.pure _

theorem builtinStmt_adds (scope : List Local) (b : Builtin) (args : List Arg) :
    Adds (builtinStmt scope b args) := by
  unfold builtinStmt
  extract_lets jp
  have hjp (t : Term) : Adds (jp t) := by
    simp only [jp]
    split <;> exact Adds.pure _
  split
  · exact (quoted_adds _ _).bind hjp
  · exact ((value_adds _ _).map _).bind hjp
  · exact (Adds.pure _).bind hjp

theorem callStmt_adds (s : Setting) (scope : List Local) (name : Bytes)
    {codes : List (Bytes × ArgCode)} (hcodes : ∀ c ∈ codes, ∀ type, Adds (c.2 type)) :
    Adds (callStmt s scope name codes) := by
  refine (Adds.mapM fun p _ => ?_).bind fun args => Adds.pure _
  cases h : argFor codes p.name with
  | none => exact defaultTerm_adds scope p
  | some code =>
      obtain ⟨c, hc, rfl⟩ := Option.map_eq_some_iff.1 h
      exact hcodes c (List.mem_of_find?_eq_some hc) p.type

def nextLoop : Emit Nat :=
  modifyGet fun st => (st.loops, { st with loops := st.loops + 1 })

theorem nextLoop_adds : Adds nextLoop := fun _ => ⟨List.prefix_refl _, fun _ h => h⟩

theorem nodeStmt_loop_nil (s : Setting) (scope : List Local) (pos : Pos) (e : Expression)
    (item : Bytes) (body : List Node) :
    nodeStmt s scope (.loop pos e item [] body) = (do
      let v ← value scope e
      let entry ← nextLoop
      let itemId ← declare s item
      let stmts ← nodeStmts s (⟨item, itemId, .value⟩ :: scope) [] body
      return .each entry v.1 itemId none stmts) := by
  rw [nodeStmt]
  rfl

theorem nodeStmt_loop_cons (s : Setting) (scope : List Local) (pos : Pos) (e : Expression)
    (item : Bytes) {index : Bytes} (hindex : index.isEmpty = false) (body : List Node) :
    nodeStmt s scope (.loop pos e item index body) = (do
      let v ← value scope e
      let entry ← nextLoop
      let itemId ← declare s item
      let indexId ← declare s index
      let stmts ← nodeStmts s (⟨index, indexId, .value⟩ :: ⟨item, itemId, .value⟩ :: scope) [] body
      return .each entry v.1 itemId (some indexId) stmts) := by
  rw [nodeStmt, hindex]
  rfl

mutual

theorem nodeStmt_adds (s : Setting) (scope : List Local) (n : Node) :
    Adds (nodeStmt s scope n) := by
  cases n with
  | literal pos t => exact Adds.pure _
  | interpolation pos e esc =>
      rw [nodeStmt]
      exact (value_adds scope e).bind fun _ => Adds.pure _
  | invocation pos name args =>
      rw [nodeStmt]
      split
      · exact builtinStmt_adds scope _ args
      · exact callStmt_adds s scope name (argCodes_adds s scope args)
  | cond pos e body otherwise =>
      rw [nodeStmt]
      refine (value_adds scope e).bind fun v => (nodeStmts_adds s scope [] body).bind fun yes => ?_
      extract_lets jp
      have hjp (no : Option (List Stmt)) : Adds (jp no) := Adds.pure _
      cases otherwise with
      | none => exact (Adds.pure _).bind hjp
      | some nodes =>
          exact ((nodeStmts_adds s scope [] nodes).bind fun _ => Adds.pure _).bind hjp
  | loop pos e item index body =>
      cases hindex : index.isEmpty with
      | true =>
          rw [List.isEmpty_iff.1 hindex, nodeStmt_loop_nil]
          exact (value_adds scope e).bind fun v => nextLoop_adds.bind fun entry =>
            (declare_adds s item).bind fun itemId =>
              (nodeStmts_adds s _ [] body).bind fun stmts => Adds.pure _
      | false =>
          rw [nodeStmt_loop_cons s scope pos e item hindex]
          exact (value_adds scope e).bind fun v => nextLoop_adds.bind fun entry =>
            (declare_adds s item).bind fun itemId => (declare_adds s index).bind fun indexId =>
              (nodeStmts_adds s _ [] body).bind fun stmts => Adds.pure _

theorem nodeStmts_adds (s : Setting) (scope : List Local) (pending : Bytes) (ns : List Node) :
    Adds (nodeStmts s scope pending ns) := by
  cases ns with
  | nil => exact Adds.pure _
  | cons n ns =>
      cases n with
      | literal pos t =>
          rw [nodeStmts]
          exact nodeStmts_adds s scope (pending ++ t) ns
      | _ =>
          rw [nodeStmts]
          · exact (nodeStmt_adds s scope _).bind fun stmt =>
              (nodeStmts_adds s scope [] ns).bind fun stmts => Adds.pure _
          · simp

theorem argCodes_adds (s : Setting) (scope : List Local) (args : List Arg) :
    ∀ c ∈ argCodes s scope args, ∀ type, Adds (c.2 type) := by
  cases args with
  | nil => simp [argCodes]
  | cons a as =>
      have has := argCodes_adds s scope as
      cases a with
      | text pos name parts =>
          rw [argCodes]
          refine List.forall_mem_cons.2 ⟨fun type => ?_, has⟩
          exact (quoted_adds scope parts).bind fun t => Adds.pure _
      | expr pos name e =>
          rw [argCodes]
          refine List.forall_mem_cons.2 ⟨fun type => ?_, has⟩
          exact (value_adds scope e).bind fun t => Adds.pure _
      | content pos name body =>
          rw [argCodes]
          refine List.forall_mem_cons.2 ⟨fun type => ?_, has⟩
          exact (nodeStmts_adds s scope [] body).bind fun t => Adds.pure _

end

/-! ## What emission yields -/

/-- Emission under a scope yields what `Q` says, when the file has the prepared expressions in the
end. -/
def Yields {α : Type} (scope : List Local) (programs : List Bytes) (x : Emit α) (Q : α → Prop) :
    Prop :=
  ∀ st, (∀ l ∈ scope, l.id ∈ st.used) → (x.run st).2.programs <+: programs → Q (x.run st).1

section

variable {α β : Type} {scope : List Local} {programs : List Bytes}

theorem Yields.pure {a : α} {Q : α → Prop} (h : Q a) :
    Yields scope programs (pure a : Emit α) Q :=
  fun _ _ _ => h

theorem Yields.weaken {x : Emit α} {P Q : α → Prop} (hx : Yields scope programs x P)
    (h : ∀ a, P a → Q a) : Yields scope programs x Q :=
  fun st hst hp => h _ (hx st hst hp)

theorem Yields.bind {x : Emit α} {k : α → Emit β} {P : α → Prop} {Q : β → Prop} (hadds : Adds x)
    (hx : Yields scope programs x P) (hkadds : ∀ a, Adds (k a))
    (hk : ∀ a, P a → Yields scope programs (k a) Q) : Yields scope programs (x >>= k) Q := by
  intro st hst hp
  have hgrows := hadds st
  have hrest := hkadds (x.run st).1 (x.run st).2
  exact hk _ (hx st hst (hrest.programs.trans hp)) _ (fun l hl => hgrows.used _ (hst l hl)) hp

theorem yields_program (source : Bytes) :
    Yields scope programs (program source) fun i => programs[i]? = some source := by
  intro st _ hp
  obtain ⟨more, rfl⟩ := hp
  have hspec := program_spec source st
  rw [List.getElem?_append_left (List.getElem?_eq_some_iff.1 hspec).1]
  exact hspec

theorem Yields.declare_bind {s : Setting} {name : Bytes} (type : ParamType)
    {k : Bytes → Emit β} {Q : β → Prop}
    (hk : ∀ id, (∀ l ∈ scope, l.id ≠ id) →
      Yields (⟨name, id, type⟩ :: scope) programs (k id) Q) :
    Yields scope programs (declare s name >>= k) Q := by
  intro st hst hp
  refine hk _ (fun l hl heq => ?_) _ (fun l hl => ?_) hp
  · refine declare_fresh s name st ?_
    have hmem := hst l hl
    rw [heq] at hmem
    exact hmem
  · rcases List.mem_cons.1 hl with rfl | hl
    · exact declare_mem s name st
    · exact (declare_adds s name st).used _ (hst l hl)

end

end TagLoom.Code

import TagLoom.Proofs.Markup.Escaped
import TagLoom.Proofs.Rendering.Pieces

/-!
# Pieces in their places

Nodes that sit in HTML: every value is escaped as its place asks, branches meet again, loops end
where they began, and tags and blocks begin and end in text.  Whatever a rendering of such nodes
emits, each value stands in a place that takes it and does not lead away from it.
-/

namespace TagLoom.Rendering

/-! ## Nodes that sit -/

structure ReadsData (types : Types) (e : Expression) : Prop where
  names : ∀ n ∈ e.names, types.get? n ≠ some .content
  bare : e.isBare = true → types.get? e.source ≠ some .content

structure NamesContent (types : Types) (e : Expression) : Prop where
  bare : e.isBare = true
  type : types.get? e.source = some .content

/-- What the arguments of a call hand to a parameter is content only if the parameter takes it. -/
def Hands (types : Types) (args : List Arg) (param : Param) : Prop :=
  match Arg.find? args param.name with
  | none => ∀ e, param.default = some e → e.names = []
  | some (.content _ _ _) => param.type = .content
  | some (.text _ _ _) => True
  | some (.expr _ _ e) => ReadsData types e ∨ NamesContent types e ∧ param.type = .content

inductive Sits (b : Bundle) : Types → Markup → List Node → Markup → Prop where
  | nil {types m} : Sits b types m [] m
  | literal {types m pos s rest stop} (hrest : Sits b types (m.advance s) rest stop) :
      Sits b types m (.literal pos s :: rest) stop
  | content {types pos e rest stop} (he : NamesContent types e) (hrest : Sits b types .text rest stop) :
      Sits b types .text (.interpolation pos e (some .html) :: rest) stop
  | value {types m pos e esc rest stop} (he : ReadsData types e) (hesc : m.Takes esc)
      (hrest : Sits b types m rest stop) : Sits b types m (.interpolation pos e (some esc) :: rest) stop
  | call {types pos name args rest stop} (hname : Builtin.find? name = none)
      (hblocks : ∀ q a body, .content q a body ∈ args → Sits b types .text body .text)
      (hparams : ∀ n param, (((b.find? name).map (·.params)).getD []).find? (·.name == n) = some param →
        Hands types args param)
      (hrest : Sits b types .text rest stop) :
      Sits b types .text (.invocation pos name args :: rest) stop
  | cond {types m mid pos e body otherwise rest stop} (hbody : Sits b types m body mid)
      (hother : Sits b types m (otherwise.getD []) mid) (hrest : Sits b types mid rest stop) :
      Sits b types m (.cond pos e body otherwise :: rest) stop
  | loop {types m pos e item index body rest stop} (he : ReadsData types e)
      (hbody : Sits b (types.withLoop item index) m body m) (hrest : Sits b types m rest stop) :
      Sits b types m (.loop pos e item index body :: rest) stop

theorem Sits.quoteNamed {b : Bundle} {types : Types} {m stop : Markup} {ns : List Node}
    (h : Sits b types m ns stop) (hm : m.QuoteNamed) : stop.QuoteNamed := by
  induction h with
  | nil => exact hm
  | literal _ ih => exact ih (hm.advance _)
  | content _ _ ih => exact ih hm
  | value _ _ _ ih => exact ih hm
  | call _ _ _ _ _ ih => exact ih hm
  | cond _ _ _ ihbody _ ih => exact ih (ihbody hm)
  | loop _ _ _ _ ih => exact ih hm

/-! ## Values of names -/

/-- A value is what its type says: data, or for content data that is shown and blocks that sit in
text, under values that are what their types say. -/
inductive HasType (b : Bundle) : Bool → Value NodeBlock → Prop where
  | data {v} (h : v.IsData) : HasType b false v
  | nothing : HasType b true .nil
  | none : HasType b true .noContent
  | shown {v} (h : v.IsData) : HasType b true (.shown v)
  | block {types nodes env} (hnodes : Sits b types .text nodes .text)
      (henv : ∀ n, HasType b (types.get? n == some .content) (Env.get env n)) :
      HasType b true (.block ⟨nodes, types⟩ env)

/-- The values of names are what their types say. -/
def Typed (b : Bundle) (types : Types) (env : Env NodeBlock) : Prop :=
  ∀ n, HasType b (types.get? n == some .content) (env.get n)

variable {b : Bundle} {types : Types} {env : Env NodeBlock}

theorem HasType.isData {v : Value NodeBlock} (h : HasType b false v) : v.IsData := by
  cases h with
  | data h => exact h

theorem HasType.asContent {v : Value NodeBlock} (h : HasType b true v) :
    HasType b true v.asContent := by
  cases h with
  | nothing | none => exact .none
  | shown h => exact .shown h
  | block hnodes henv => exact .block hnodes henv

theorem hasType_asContent {v : Value NodeBlock} (h : v.IsData) : HasType b true v.asContent := by
  rcases Value.asContent_of_isData h with heq | heq <;> rw [heq]
  · exact .none
  · exact .shown h

theorem hasType_convert {v : Value NodeBlock} (given : ParamType) {wanted : ParamType}
    (h : v.IsData ∨ HasType b true v ∧ wanted = .content) :
    HasType b (wanted == .content) (convert v given wanted) := by
  cases wanted with
  | content =>
      rcases h with h | ⟨h, -⟩
      · exact hasType_asContent h
      · exact h.asContent
  | text =>
      refine .data ?_
      rw [convert]
      split
      · exact h.resolve_right fun h => ParamType.noConfusion h.2
      · exact Value.all_text _
  | _ => exact .data (h.resolve_right fun h => ParamType.noConfusion h.2)

section Evaluated

variable [Language] [LawfulLanguage]

theorem ReadsData.isData {e : Expression} (he : ReadsData types e) (henv : Typed b types env)
    (p : Page) : (valueOf types env e p).1.IsData := by
  have hdata {n : Bytes} (hn : types.get? n ≠ some .content) : (env.get n).IsData := by
    have h := henv n
    rw [beq_eq_false_iff_ne.2 hn] at h
    exact h.isData
  rw [valueOf]
  split
  · rename_i hbare
    exact hdata (he.bare (Bool.and_eq_true_iff.1 hbare).1)
  · split
    · exact Value.all_toValue _
    · refine p.all_evaluate (Value.allEntries_iff.2 fun entry hentry => ?_) e
      obtain ⟨n, hn, hentry⟩ := List.mem_filterMap.1 hentry
      obtain ⟨v, hv, rfl⟩ := Option.map_eq_some_iff.1 hentry
      have hget : env.get n = v := by rw [Env.get, hv, Option.getD_some]
      exact hget ▸ hdata (he.names n hn)

theorem isData_of_names_eq_nil {e : Expression} (he : e.names = []) (env : Env NodeBlock) (p : Page) :
    (valueOf [] env e p).1.IsData := by
  rw [valueOf]
  split
  · rename_i hbare
    simp [Types.get?] at hbare
  · split
    · exact Value.all_toValue _
    · have hnone : bindings e env = [] := by rw [bindings, he, List.filterMap_nil]
      have hempty : Value.AllEntries (fun _ : Value NodeBlock => False) [] := trivial
      exact p.all_evaluate (hnone ▸ hempty) e

end Evaluated

theorem NamesContent.valueOf [Language] {e : Expression} (he : NamesContent types e) (p : Page) :
    valueOf types env e p = (env.get e.source, p) := by
  rw [Rendering.valueOf, he.bare, he.type]
  rfl

theorem NamesContent.hasType {e : Expression} (he : NamesContent types e) (henv : Typed b types env) :
    HasType b true (env.get e.source) := by
  have h := henv e.source
  rw [he.type] at h
  exact h

theorem NamesContent.typeOf {e : Expression} (he : NamesContent types e) :
    typeOf types e = .content := by
  rw [Rendering.typeOf, he.bare, if_pos rfl, he.type]

theorem ReadsData.typeOf {e : Expression} (he : ReadsData types e) : typeOf types e ≠ .content := by
  rw [Rendering.typeOf]
  split
  · rename_i t ht
    split at ht
    · rename_i hbare
      intro heq
      exact he.bare hbare (heq ▸ ht)
    · cases ht
  · cases e.literal? with
    | none => simp
    | some l => cases l <;> simp [literalType]

/-! ## Calls -/

theorem hasType_argument [Language] [LawfulLanguage] {args : List Arg} {param : Param}
    (h : Hands types args param)
    (hblocks : ∀ q a body, .content q a body ∈ args → Sits b types .text body .text)
    (henv : Typed b types env) (p : Page) :
    HasType b (param.type == .content) (argument types env args param p).1 := by
  rw [argument]
  rw [Hands] at h
  cases hfind : Arg.find? args param.name with
  | none =>
      simp only [hfind] at h ⊢
      cases hdefault : param.default with
      | none => exact hasType_convert _ (Or.inl Value.all_nil)
      | some e => exact hasType_convert _ (Or.inl (isData_of_names_eq_nil (h e hdefault) env p))
  | some a =>
      cases a with
      | content q a body =>
          simp only [hfind] at h ⊢
          exact hasType_convert _
            (Or.inr ⟨.block (hblocks q a body (List.mem_of_find?_eq_some hfind)) henv, h⟩)
      | text q a parts => exact hasType_convert _ (Or.inl (Value.all_text _))
      | expr q a e =>
          simp only [hfind] at h ⊢
          rcases h with h | ⟨h, htype⟩
          · exact hasType_convert _ (Or.inl (h.isData henv p))
          · rw [h.valueOf]
            exact hasType_convert _ (Or.inr ⟨h.hasType henv, htype⟩)

theorem Typed.cons {name : Bytes} {type : ParamType} {v : Value NodeBlock}
    (hv : HasType b (type == .content) v) (henv : Typed b types env) :
    Typed b ((name, type) :: types) ((name, v) :: env) := by
  intro n
  by_cases hn : name = n
  · simpa [Types.get?, Env.get, Env.get?, hn] using hv
  · simpa [Types.get?, Env.get, Env.get?, hn] using henv n

def typesOf (params : List Param) : Types := params.map fun param => (param.name, param.type)

theorem typed_nil : Typed b [] [] := fun _ => .data Value.all_nil

theorem typed_arguments [Language] [LawfulLanguage] {args : List Arg} {params : List Param}
    (h : ∀ n param, params.find? (·.name == n) = some param → Hands types args param)
    (hblocks : ∀ q a body, .content q a body ∈ args → Sits b types .text body .text)
    (henv : Typed b types env) (p : Page) :
    Typed b (typesOf params) (arguments types env args params p).1 := by
  intro n
  replace h := h n
  induction params generalizing p with
  | nil => exact typed_nil n
  | cons param params ih =>
      rw [List.find?_cons] at h
      rw [typesOf, List.map_cons, arguments]
      cases hn : param.name == n with
      | true =>
          have hparam := hasType_argument (h param (by rw [hn])) hblocks henv p
          simpa [Types.get?, Env.get, Env.get?, hn] using hparam
      | false =>
          rw [hn] at h
          have hrest := ih (argument types env args param p).2 h
          simpa [typesOf, Types.get?, Env.get, Env.get?, hn] using hrest

theorem Typed.bindRound (henv : Typed b types env) {item index : Bytes}
    {entry : Value NodeBlock × Value NodeBlock} (hentry : entry.1.IsData ∧ entry.2.IsData) :
    Typed b (types.withLoop item index) (bindRound env item index entry) := by
  have hitem : Typed b ((item, .value) :: types) ((item, entry.2) :: env) := henv.cons (.data hentry.2)
  rw [Types.withLoop, Rendering.bindRound]
  cases index.isEmpty with
  | true => exact hitem
  | false => exact hitem.cons (.data hentry.1)

/-! ## Pieces that stand -/

/-- A piece stands in a place: a literal anywhere, a value where it is written as its escape asks and
does not lead away. -/
def Piece.Stands (m : Markup) : Piece → Prop
  | .literal _ => True
  | .value esc text => m.Takes esc ∧ m.advance text = m
  | .foreign _ => False

def placeAfter (m : Markup) (pieces : List Piece) : Markup :=
  pieces.foldl (fun m piece => m.advance piece.text) m

/-- Each piece stands in the place that those before it lead to. -/
def AllStand (m : Markup) (pieces : List Piece) : Prop :=
  ∀ before piece after, pieces = before ++ piece :: after → piece.Stands (placeAfter m before)

variable {m mid stop : Markup} {pieces : List Piece}

theorem placeAfter_append (m : Markup) (a b : List Piece) :
    placeAfter m (a ++ b) = placeAfter (placeAfter m a) b := List.foldl_append

theorem allStand_nil (m : Markup) : AllStand m [] := by
  intro before piece after h
  cases before <;> cases h

theorem AllStand.append {a b : List Piece} (ha : AllStand m a) (hb : AllStand (placeAfter m a) b) :
    AllStand m (a ++ b) := by
  intro before piece after h
  rcases List.append_eq_append_iff.1 h with ⟨c, rfl, hc⟩ | ⟨c, rfl, hc⟩
  · rw [placeAfter_append]
    exact hb c piece after hc
  · cases c with
    | nil =>
        rw [List.append_nil] at ha hb
        exact hb [] piece after (by simpa using hc.symm)
    | cons first c =>
        rw [List.cons_append, List.cons.injEq] at hc
        exact ha before piece c (by rw [hc.1])

theorem allStand_singleton {piece : Piece} (h : piece.Stands m) : AllStand m [piece] := by
  intro before piece' after heq
  cases before with
  | nil =>
      cases heq
      exact h
  | cons first before => simp at heq

/-- A rendering that leads from one place to another: its pieces stand, and when it ends without an
error they lead all the way. -/
structure Follows (m stop : Markup) (pieces : List Piece) (result : Option Page) : Prop where
  stand : AllStand m pieces
  ends : ∀ p, result = some p → p.err? = none → placeAfter m pieces = stop

variable {result : Option Page}

theorem Follows.still (m : Markup) (result : Option Page) : Follows m m [] result :=
  ⟨allStand_nil m, fun _ _ _ => rfl⟩

theorem follows_pieceOn {esc : Escape} (h : m.Takes esc) (p : Page) (s : Bytes) (result : Option Page) :
    Follows m m (pieceOn p (.value esc (esc.apply s))) result := by
  rw [pieceOn]
  split
  · exact .still m result
  · exact ⟨allStand_singleton ⟨h, h.advance s⟩, fun _ _ _ => h.advance s⟩

theorem follows_dataPieces {esc : Escape} (h : m.Takes esc) (p : Page) (v : Value NodeBlock)
    (result : Option Page) : Follows m m (dataPieces p v esc) result := by
  unfold dataPieces
  split
  · exact .still m result
  · exact .still m result
  · split
    · exact follows_pieceOn h p _ result
    · exact .still m result

theorem Follows.andThen {stepped : Option Page} {next : Page → Option Page} {after : Page → List Piece}
    (hstep : Follows m mid pieces stepped) (hnext : ∀ q, Follows mid stop (after q) (next q)) :
    Follows m stop (pieces ++ piecesAfter stepped after) (onwards stepped next) := by
  cases stepped with
  | none => exact ⟨by simpa [piecesAfter] using hstep.stand, fun _ h => nomatch h⟩
  | some q =>
      cases herr : q.err? with
      | some e =>
          simp only [piecesAfter, onwards, thenUnlessFailed, herr, Option.isSome_some, if_true,
            List.append_nil]
          exact ⟨hstep.stand, fun p hp hnone => by cases hp; simp [herr] at hnone⟩
      | none =>
          have hmid := hstep.ends q rfl herr
          simp only [piecesAfter, onwards, thenUnlessFailed, herr, Option.isSome_none,
            Bool.false_eq_true, if_false]
          refine ⟨hstep.stand.append (hmid.symm ▸ (hnext q).stand), fun p hp hnone => ?_⟩
          rw [placeAfter_append, hmid]
          exact (hnext q).ends p hp hnone

/-! ## Renderings of nodes that sit -/

variable {r : Runner} {em : Emitter}

/-- Invoked tags and blocks lead from text to text. -/
structure RunnerFollows (b : Bundle) (r : Runner) (em : Emitter) : Prop where
  tag : ∀ name args p, (∀ t, b.find? name = some t → Typed b (typesOf t.params) args) →
    Follows .text .text (em.tag name args p) (r.tag name args p)
  block : ∀ nodes types env p, Sits b types .text nodes .text → Typed b types env →
    Follows .text .text (em.block ⟨nodes, types⟩ env p) (r.block ⟨nodes, types⟩ env p)

theorem follows_contentPieces (hr : RunnerFollows b r em) {v : Value NodeBlock} (hv : HasType b true v)
    (p : Page) : Follows .text .text (contentPieces em.block p v) (p.writeContent r.block v) := by
  cases hv with
  | nothing | none => exact .still .text _
  | shown h => exact follows_dataPieces .text p _ _
  | @block types nodes env hnodes henv =>
      cases hp : p.failure with
      | some e =>
          simp only [contentPieces, hp, Option.isSome_some, if_true]
          exact .still .text _
      | none =>
          have hrun := hr.block nodes types env p hnodes henv
          simp only [contentPieces, hp, Option.isSome_none, Bool.false_eq_true, if_false]
          refine ⟨hrun.stand, fun q hq hnone => ?_⟩
          simp only [Page.writeContent, hp] at hq
          obtain ⟨ended, hended, hleft⟩ := Option.map_eq_some_iff.1 hq
          refine hrun.ends ended hended ?_
          cases herr : ended.err? with
          | none => rfl
          | some e =>
              simp only [herr] at hleft
              have hfailed := Page.err?_fail_isSome ended e
              rw [hleft, hnone] at hfailed
              cases hfailed

theorem follows_rounds {ε : Type} {round : ε → Page → Option Page} {after : ε → Page → List Piece}
    {es : List ε} (h : ∀ e ∈ es, ∀ p, Follows m m (after e p) (round e p)) (p : Page) :
    Follows m m (roundPieces round after es p) (eachRound round es p) := by
  induction es generalizing p with
  | nil => exact .still m _
  | cons e es ih =>
      obtain ⟨he, hes⟩ := List.forall_mem_cons.1 h
      exact (he p).andThen fun q => ih hes q

theorem follows_cons [Language] {n : Node} (hn : ∀ pos s, n ≠ .literal pos s) {rest : List Node}
    (hnode : ∀ p, Follows m mid (nodePieces b r em types env n p) (renderNode b r types env n p))
    (hrest : ∀ p, Follows mid stop (nodesPieces b r em types env [] rest p)
      (renderNodes b r types env [] rest p))
    (pending : Bytes) (p : Page) :
    Follows m stop (nodesPieces b r em types env pending (n :: rest) p)
      (renderNodes b r types env pending (n :: rest) p) := by
  rw [nodesPieces.eq_3 _ _ _ _ _ _ _ _ _ hn, renderNodes.eq_3 _ _ _ _ _ _ _ _ hn]
  cases hstop : !pending.isEmpty && (p.raw pending).err?.isSome with
  | true =>
      simp only [if_true]
      refine ⟨allStand_nil m, fun q hq hnone => ?_⟩
      cases hq
      simp [hnone] at hstop
  | false =>
      simp only [Bool.false_eq_true, if_false]
      exact (hnode _).andThen hrest

theorem follows_content [Language] (hr : RunnerFollows b r em) {e : Expression}
    (he : NamesContent types e)
    (henv : Typed b types env) (p : Page) :
    Follows .text .text (exprPieces em types env e .html p) (writeExpr r types env e .html p) := by
  rw [exprPieces, writeExpr, he.valueOf]
  simp only [he.typeOf]
  exact follows_contentPieces hr (he.hasType henv).asContent p

section Evaluated

variable [Language] [LawfulLanguage]

theorem follows_value {e : Expression} {esc : Escape} (he : ReadsData types e) (hesc : m.Takes esc)
    (henv : Typed b types env) (p : Page) (result : Option Page) :
    Follows m m (exprPieces em types env e esc p) result := by
  have hdata := he.isData henv p
  rw [exprPieces]
  cases hvalue : valueOf types env e p with
  | mk v q =>
      rw [hvalue] at hdata
      cases htype : typeOf types e with
      | content => exact absurd htype he.typeOf
      | text => exact follows_pieceOn hesc q _ result
      | _ =>
          simp only [valuePieces, Value.isRenderable_of_isData hdata, Bool.false_eq_true, if_false]
          exact follows_dataPieces hesc q v result

theorem follows_call (hr : RunnerFollows b r em) {name : Bytes} {args : List Arg}
    (hname : Builtin.find? name = none)
    (hblocks : ∀ q a body, .content q a body ∈ args → Sits b types .text body .text)
    (hparams : ∀ n param, (((b.find? name).map (·.params)).getD []).find? (·.name == n) = some param →
      Hands types args param)
    (henv : Typed b types env) (p : Page) :
    Follows .text .text (callPieces b em types env name args p) (invoke b r types env name args p) := by
  simp only [callPieces, invoke, hname]
  refine hr.tag name _ _ fun t ht => ?_
  have hargs := typed_arguments hparams hblocks henv p
  rwa [ht] at hargs ⊢

theorem follows_nodes (hr : RunnerFollows b r em) {ns : List Node} (hns : Sits b types m ns stop)
    (henv : Typed b types env) (pending : Bytes) (p : Page) :
    Follows m stop (nodesPieces b r em types env pending ns p)
      (renderNodes b r types env pending ns p) := by
  induction hns generalizing env pending p with
  | nil => exact .still _ _
  | @literal types m pos s rest stop hrest ih =>
      rw [nodesPieces, renderNodes]
      have hfollows := ih henv (pending ++ s) p
      have hfirst : AllStand m [.literal s] := allStand_singleton trivial
      exact ⟨hfirst.append hfollows.stand, hfollows.ends⟩
  | content he hrest ih =>
      refine follows_cons (by simp) (fun q => ?_) (ih henv []) pending p
      rw [nodePieces, renderNode]
      exact follows_content hr he henv q
  | value he hesc hrest ih =>
      refine follows_cons (by simp) (fun q => ?_) (ih henv []) pending p
      rw [nodePieces]
      exact follows_value he hesc henv q _
  | call hname hblocks hparams hrest ihblocks ih =>
      refine follows_cons (by simp) (fun q => ?_) (ih henv []) pending p
      rw [nodePieces, renderNode]
      exact follows_call hr hname hblocks hparams henv q
  | @cond types m mid pos e body otherwise rest stop hbody hother hrest ihbody ihother ih =>
      refine follows_cons (by simp) (fun q => ?_) (ih henv []) pending p
      rw [nodePieces, renderNode]
      cases hvalue : valueOf types env e q with
      | mk v q =>
          cases hholds : holds (typeOf types e) v with
          | true =>
              simp only [hholds, if_true]
              exact ihbody henv [] q
          | false =>
              simp only [hholds, Bool.false_eq_true, if_false]
              cases otherwise with
              | none => exact ihother henv [] q
              | some nodes => exact ihother henv [] q
  | @loop types m pos e item index body rest stop he hbody hrest ihbody ih =>
      refine follows_cons (by simp) (fun q => ?_) (ih henv []) pending p
      rw [nodePieces, renderNode]
      have hdata := he.isData henv q
      exact follows_rounds (fun entry hentry q' =>
        ihbody (henv.bindRound (Page.all_entries hdata _ entry hentry)) [] q') _

end Evaluated

end TagLoom.Rendering

namespace TagLoom.Bundle

open Rendering

/-- Every tag sits in text, and the defaults of its parameters read no names. -/
structure Settled (b : Bundle) : Prop where
  tags : ∀ t ∈ b.tags, Sits b t.types .text t.body .text
  defaults : ∀ t ∈ b.tags, ∀ param ∈ t.params, ∀ e, param.default = some e → e.names = []

variable {b : Bundle} {model : Env NodeBlock}

section Evaluated

variable [Language] [LawfulLanguage]

theorem Settled.runner (h : b.Settled) (depth : Nat) :
    RunnerFollows b (b.runner depth) (b.emitter depth) := by
  induction depth with
  | zero => exact ⟨fun _ _ _ _ => ⟨allStand_nil _, nofun⟩, fun _ _ _ _ _ _ => ⟨allStand_nil _, nofun⟩⟩
  | succ n ih =>
      refine ⟨fun name args p hargs => ?_, fun nodes types env p hnodes henv => ?_⟩
      · rw [Bundle.runner, emitter]
        cases ht : b.find? name with
        | none =>
            simp only [ht]
            exact .still .text _
        | some t =>
            simp only [ht]
            exact follows_nodes ih (h.tags t (List.mem_of_find?_eq_some ht)) (hargs t ht) [] p
      · exact follows_nodes ih hnodes henv [] p

/-! ## Models of data -/

theorem hasType_bindParam (hmodel : ∀ entry ∈ model, entry.2.IsData) {param : Param}
    (hdefault : ∀ e, param.default = some e → e.names = []) {p p' : Page} {v : Value NodeBlock}
    (h : bindParam model param p = .ok (v, p')) : HasType b (param.type == .content) v := by
  rw [bindParam] at h
  split at h
  · cases htype : param.type with
    | text =>
        simp only [htype] at h
        cases hs : model.requiredText param.name with
        | error e => rw [hs] at h; cases h
        | ok s =>
            rw [hs] at h
            cases h
            exact .data (Value.all_text s)
    | content =>
        simp only [htype, Env.requiredContent] at h
        cases hv : model.required param.name with
        | error e => rw [hv] at h; cases h
        | ok w =>
            rw [hv] at h
            cases h
            exact hasType_asContent (all_required (Value.allEntries_iff.2 hmodel) hv)
    | _ =>
        simp only [htype] at h
        cases hv : model.required param.name with
        | error e => rw [hv] at h; cases h
        | ok w =>
            rw [hv] at h
            cases h
            exact .data (all_required (Value.allEntries_iff.2 hmodel) hv)
  · have hvalue : HasType b (param.type == .content) (defaultValue param p).1 := by
      rw [defaultValue]
      cases he : param.default with
      | none =>
          cases param.type with
          | content => exact .nothing
          | _ => exact .data Value.all_nil
      | some e => exact hasType_convert _ (Or.inl (isData_of_names_eq_nil (hdefault e he) [] p))
    cases h
    split
    · rename_i htext
      rw [beq_iff_eq.1 htext]
      exact .data (Value.all_text _)
    · exact hvalue

theorem typed_bindParams (hmodel : ∀ entry ∈ model, entry.2.IsData) {params : List Param}
    (hdefaults : ∀ param ∈ params, ∀ e, param.default = some e → e.names = []) {p p' : Page}
    {args : Env NodeBlock} (h : bindParams model params p = .ok (args, p')) :
    Typed b (typesOf params) args := by
  induction params generalizing p args with
  | nil =>
      cases h
      exact typed_nil
  | cons param params ih =>
      obtain ⟨hdefault, hdefaults⟩ := List.forall_mem_cons.1 hdefaults
      obtain ⟨v, q, rest, hparam, hrest, rfl⟩ := exists_of_bindParams_cons h
      exact (ih hdefaults hrest).cons (hasType_bindParam hmodel hdefault hparam)

/-- Whatever rendering a tag of a settled bundle for a model of data emits, each piece stands, and
without an error it all ends in text. -/
theorem Settled.pieces (h : b.Settled) (depth : Nat) (tag : Bytes)
    (hmodel : ∀ entry ∈ model, entry.2.IsData) (p : Page) :
    AllStand .text (b.pieces depth tag model p) ∧
      ∀ p', (b.registryWithin depth).render tag model p = some (p', none) →
        placeAfter .text (b.pieces depth tag model p) = .text := by
  rw [Bundle.pieces, render_registryWithin]
  cases ht : b.find? tag with
  | none => exact ⟨allStand_nil _, fun p' h => by cases h⟩
  | some t =>
      have hmem := List.mem_of_find?_eq_some ht
      simp only [body]
      cases hbind : bindParams model t.params p with
      | error e => exact ⟨allStand_nil _, fun p' h => by cases h⟩
      | ok bound =>
          have hname : t.name = tag := by simpa using List.find?_some ht
          have hargs : Typed b (typesOf t.params) bound.1 :=
            typed_bindParams hmodel (h.defaults t hmem) hbind
          have hfollows := (h.runner depth).tag t.name bound.1 bound.2 fun u hu => by
            rw [hname, ht] at hu
            cases hu
            exact hargs
          refine ⟨hfollows.stand, fun p' hrender => ?_⟩
          simp only [Option.map_map, Option.map_eq_some_iff] at hrender
          obtain ⟨q, hq, hresult⟩ := hrender
          refine hfollows.ends q hq ?_
          simpa using congrArg Prod.snd hresult

end Evaluated

end TagLoom.Bundle

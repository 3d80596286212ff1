import TagLoom.Proofs.Code.Joint
import TagLoom.Proofs.Page.Failure

/-!
# Generated code does what the renderer does

The statements emitted for nodes are followed by the renderer of the nodes: whenever the code comes
to an end, so does the renderer, on the same page.  The renderer stops at an error at once; the code
goes on to where an error is looked at, but does nothing any more: the page stays as it is, and an
error that is returned is the one of the page.
-/

namespace TagLoom

namespace Page

variable {β : Type}

/-! ## Whether a page was given up -/

theorem put_cancelled (p : Page) (s : Bytes) (refused : Bytes → RenderError) :
    (p.put s refused).cancelled = p.cancelled := by
  rw [put]
  split
  · rfl
  · split <;> rfl

theorem raw_cancelled (p : Page) (s : Bytes) : (p.raw s).cancelled = p.cancelled := by
  rw [raw]
  split
  · rfl
  · exact put_cancelled p s _

theorem fail_cancelled (p : Page) (e : RenderError) : (p.fail e).cancelled = p.cancelled := by
  rw [fail]
  split <;> rfl

theorem writeData_cancelled (p : Page) (v : Value β) (esc : Escape) :
    (p.writeData v esc).cancelled = p.cancelled := by
  unfold writeData
  split
  · rfl
  · rfl
  · rfl
  · split
    · exact raw_cancelled p _
    · exact fail_cancelled p _

theorem supply_cancelled (s : Supply) (p : Page) : (p.supply s).cancelled = p.cancelled := by
  induction s generalizing p with
  | done => rfl
  | fail e => exact fail_cancelled p _
  | write text next ih =>
      rw [supply]
      split
      · exact ih none _
      · exact ih _ p
  | ask next ih => exact ih p.cancelled p

theorem writeMarkdown_cancelled (p : Page) (v : Value β) :
    (p.writeMarkdown v).cancelled = p.cancelled := by
  have hfold (ts : List Bytes) (p : Page) (refused : Bytes → RenderError) :
      (ts.foldl (fun p t => p.put t refused) p).cancelled = p.cancelled := by
    induction ts generalizing p with
    | nil => rfl
    | cons t ts ih => rw [List.foldl_cons, ih, put_cancelled]
  unfold writeMarkdown
  split
  · rfl
  · exact hfold _ p _

theorem writeSanitized_cancelled (p : Page) (v : Value β) (policy : Bytes) :
    (p.writeSanitized v policy).cancelled = p.cancelled := by
  unfold writeSanitized
  split
  · rfl
  · rfl
  · split
    · exact fail_cancelled p _
    · exact raw_cancelled p _

theorem entries_cancelled (p : Page) (v : Value β) : (p.entries v).2.cancelled = p.cancelled := by
  rw [entries]
  split
  · rfl
  · split
    · split
      · exact fail_cancelled p _
      · rfl
    · exact fail_cancelled p _

theorem err?_of_not_cancelled {p : Page} (h : p.cancelled = false) : p.err? = p.failure := by
  rw [err?, h]
  cases p.failure <;> rfl

end Page

namespace Code

/-! ## Terms after an error -/

section

variable [Language] {programs : List Bytes} {locals : Env Closure} {p : Page}

mutual

theorem termValue_of_failure (h : p.failure.isSome) (t : Term) :
    (termValue programs locals t p).2 = p := by
  cases t with
  | eval i vars =>
      rw [termValue, evalProgram]
      split
      · rw [Page.evaluate_of_failure h]
      · rfl
  | toText t | textContent t | asContent t => exact termValue_of_failure h t
  | concat ts => exact termValues_of_failure h ts
  | _ => rfl

theorem termValues_of_failure (h : p.failure.isSome) (ts : List Term) :
    (termValues programs locals ts p).2 = p := by
  cases ts with
  | nil => rfl
  | cons t ts =>
      rw [termValues]
      simp only [termValue_of_failure h t, termValues_of_failure h ts]

end

end

/-! ## Statements after an error -/

/-- On a page with an error nothing happens, and only that error is returned. -/
def Idle (x : Page → Option (Page × Option RenderError)) : Prop :=
  ∀ p p' e, p.failure.isSome → x p = some (p', e) → p' = p ∧ ∀ e', e = some e' → p.failure = some e'

theorem idle_of_page {x : Page → Page} (h : ∀ p, p.failure.isSome → x p = p) :
    Idle fun p => some (x p, none) := by
  intro p p' e hp hx
  cases hx
  exact ⟨h p hp, by simp⟩

theorem Idle.thenUnlessReturned {x y : Page → Option (Page × Option RenderError)} (hx : Idle x)
    (hy : Idle y) : Idle fun p => thenUnlessReturned (x p) y := by
  intro p p' e hp h
  cases hr : x p with
  | none => simp [hr, Code.thenUnlessReturned] at h
  | some r =>
      obtain ⟨q, e₁⟩ := r
      obtain ⟨rfl, he₁⟩ := hx p q e₁ hp hr
      cases e₁ with
      | none => exact hy _ _ _ hp (by simpa [hr, Code.thenUnlessReturned] using h)
      | some e₁ =>
          simp only [hr, Code.thenUnlessReturned, Option.some.injEq, Prod.mk.injEq] at h
          obtain ⟨rfl, rfl⟩ := h
          exact ⟨rfl, he₁⟩

theorem Idle.afterTerm [Language] (programs : List Bytes) (locals : Env Closure) (t : Term)
    {k : Value Closure → Page → Option (Page × Option RenderError)} (hk : ∀ v, Idle (k v)) :
    Idle fun p =>
      k (termValue programs locals t p).1 (termValue programs locals t p).2 := by
  intro p p' e hp h
  simp only [termValue_of_failure hp] at h
  exact hk _ p p' e hp h

theorem Idle.map {x : Page → Option Page} (h : ∀ p, p.failure.isSome → x p = some p) :
    Idle fun p => (x p).map fun p => (p, none) := by
  intro p p' e hp hx
  simp only [h p hp] at hx
  cases hx
  exact ⟨rfl, by simp⟩

theorem Idle.branch (c : Bool) {x y : Page → Option (Page × Option RenderError)} (hx : Idle x)
    (hy : Idle y) : Idle fun p => if c then x p else y p := by
  cases c with
  | true => exact hx
  | false => exact hy

private theorem writeAs_of_failure (r : Runner) (form : WriteForm) (v : Value Closure)
    (esc : Escape) {p : Page} (hp : p.failure.isSome) : writeAs r form v esc p = some p := by
  cases form with
  | block => exact Page.writeContent_of_failure hp _ _
  | text => exact congrArg some (Page.raw_of_failure hp _)
  | value => exact Page.writeValue_of_failure hp _ _ _

section Running

variable [Language]

mutual

theorem runStmt_idle {r : Runner} (hr : ∀ name args, Idle (r.function name args))
    (programs : List Bytes) (locals : Env Closure) (s : Stmt) :
    Idle (runStmt r programs locals s) := by
  cases s with
  | raw s => exact idle_of_page fun p hp => Page.raw_of_failure hp s
  | write form t esc =>
      exact Idle.afterTerm programs locals t fun v => Idle.map fun p hp =>
        writeAs_of_failure r form v esc hp
  | markdown t =>
      exact Idle.afterTerm programs locals t fun v => idle_of_page fun p hp =>
        Page.writeMarkdown_of_failure hp v
  | sanitized t policy =>
      exact Idle.afterTerm programs locals t fun v => idle_of_page fun p hp =>
        Page.writeSanitized_of_failure hp v policy
  | call function args =>
      intro p p' e hp h
      have h' : r.function function (termValues programs locals args p).1
          (termValues programs locals args p).2 = some (p', e) := h
      rw [termValues_of_failure hp] at h'
      exact hr _ _ p p' e hp h'
  | branch onContent t yes no =>
      have hyes := runStmts_idle hr programs locals yes
      cases no with
      | none =>
          exact Idle.afterTerm programs locals t fun v =>
            Idle.branch (testHolds onContent v) hyes (idle_of_page fun p _ => rfl)
      | some body =>
          exact Idle.afterTerm programs locals t fun v =>
            Idle.branch (testHolds onContent v) hyes (runStmts_idle hr programs locals body)
  | each entry t item index body =>
      refine Idle.afterTerm programs locals t (fun v => ?_ : ∀ v, Idle fun p =>
        eachEntry (fun entry p => runStmts r programs (bindEntry locals item index entry) body p)
          (p.entries v).1 (p.entries v).2)
      intro p p' e hp h
      simp only [Page.entries_of_failure hp] at h
      exact idle_of_page (fun p _ => rfl) p p' e hp h

theorem runStmts_idle {r : Runner} (hr : ∀ name args, Idle (r.function name args))
    (programs : List Bytes) (locals : Env Closure) (ss : List Stmt) :
    Idle (runStmts r programs locals ss) := by
  cases ss with
  | nil => exact idle_of_page fun p _ => rfl
  | cons s ss =>
      exact (runStmt_idle hr programs locals s).thenUnlessReturned
        (runStmts_idle hr programs locals ss)

end

theorem runBody_idle {r : Runner} (hr : ∀ name args, Idle (r.function name args))
    (programs : List Bytes) (locals : Env Closure) (body : List Stmt) :
    Idle (runBody r programs locals body) := by
  intro p p' e hp h
  obtain ⟨⟨q, e₁⟩, hq, heq⟩ := Option.map_eq_some_iff.1 h
  obtain ⟨rfl, he₁⟩ := runStmts_idle hr programs locals body p q e₁ hp hq
  simp only [Prod.mk.injEq] at heq
  obtain ⟨rfl, rfl⟩ := heq
  refine ⟨rfl, fun e' he' => ?_⟩
  cases e₁ with
  | none => rwa [Option.none_or, Page.err?_of_failure hp] at he'
  | some e₁ => exact he₁ e' he'

theorem function_idle (pkg : Package) (depth : Nat) (name : Bytes) (args : List (Value Closure)) :
    Idle ((pkg.runner depth).function name args) := by
  induction depth generalizing name args with
  | zero =>
      intro p p' e hp h
      cases h
  | succ n ih =>
      intro p p' e hp h
      simp only [Package.runner] at h
      split at h
      · exact runBody_idle ih _ _ _ p p' e hp h
      · cases h

end Running

end Code

namespace Code

open Joint Value

/-! ## Steps in parallel -/

/-- Whatever page the code leaves, the renderer leaves too; what the code returns is the error of
the page. -/
def Tracks (x : Page → Option (Page × Option RenderError)) (y : Page → Option Page) : Prop :=
  ∀ p p' e, p.cancelled = false → x p = some (p', e) →
    y p = some p' ∧ p'.cancelled = false ∧ ∀ e', e = some e' → p'.failure = some e'

theorem Follows.tracks {x y : Page → Option Page} (h : Follows x y) :
    Tracks (fun p => (x p).map fun p => (p, none)) y := by
  intro p p' e hp hx
  obtain ⟨q, hq, heq⟩ := Option.map_eq_some_iff.1 hx
  simp only [Prod.mk.injEq] at heq
  obtain ⟨rfl, rfl⟩ := heq
  obtain ⟨hy, hc⟩ := h p q hp hq
  exact ⟨hy, hc, by simp⟩

theorem Tracks.thenUnlessReturned {x₁ x₂ : Page → Option (Page × Option RenderError)}
    {y₁ y₂ : Page → Option Page} (h₁ : Tracks x₁ y₁) (h₂ : Tracks x₂ y₂) (hidle : Idle x₂) :
    Tracks (fun p => Code.thenUnlessReturned (x₁ p) x₂) fun p =>
      match y₁ p with
      | none => none
      | some p => Rendering.thenUnlessFailed p y₂ := by
  intro p p' e hp hx
  cases hr : x₁ p with
  | none => simp [hr, Code.thenUnlessReturned] at hx
  | some r =>
      obtain ⟨q, e₁⟩ := r
      obtain ⟨hy, hq, he₁⟩ := h₁ p q e₁ hp hr
      simp only [hy, Rendering.thenUnlessFailed, Page.err?_of_not_cancelled hq]
      cases e₁ with
      | some e₁ =>
          simp only [hr, Code.thenUnlessReturned, Option.some.injEq, Prod.mk.injEq] at hx
          obtain ⟨rfl, rfl⟩ := hx
          have hf := he₁ e₁ rfl
          refine ⟨?_, hq, he₁⟩
          rw [hf]
          rfl
      | none =>
          have hx₂ : x₂ q = some (p', e) := by simpa [hr, Code.thenUnlessReturned] using hx
          cases hf : q.failure with
          | none => simpa using h₂ q p' e hq hx₂
          | some f =>
              obtain ⟨rfl, he⟩ := hidle q p' e (by simp [hf]) hx₂
              exact ⟨by simp, hq, he⟩

theorem Tracks.of_eq {x : Page → Option (Page × Option RenderError)} {y y' : Page → Option Page}
    (h : Tracks x y) (heq : ∀ p, y p = y' p) : Tracks x y' :=
  (funext heq : y = y') ▸ h

/-! ## Content -/

/-- A page that is not given up, changed in the same way on both sides. -/
theorem follows_of_page {x : Page → Page} (h : ∀ p, (x p).cancelled = p.cancelled) :
    Follows (fun p => some (x p)) (fun p => some (x p)) := by
  intro p p' hp hx
  cases hx
  exact ⟨rfl, (h p).trans hp⟩

theorem Tracks.each {ε ε₁ ε₂ : Type} {left : ε → ε₁} {right : ε → ε₂}
    {round₁ : ε₁ → Page → Option (Page × Option RenderError)} {round₂ : ε₂ → Page → Option Page}
    (hround : ∀ e, Tracks (round₁ (left e)) (round₂ (right e))) (hidle : ∀ e, Idle (round₁ e))
    (es : List ε) :
    Tracks (eachEntry round₁ (es.map left)) (Rendering.eachRound round₂ (es.map right)) ∧
      Idle (eachEntry round₁ (es.map left)) := by
  induction es with
  | nil =>
      exact ⟨(follows_of_page fun p => (rfl : p.cancelled = p.cancelled)).tracks,
        idle_of_page fun p _ => rfl⟩
  | cons e es ih =>
      exact ⟨(hround e).thenUnlessReturned ih.1 ih.2, (hidle _).thenUnlessReturned ih.2⟩

private theorem writeContent_data {α : Type} {v : Value α} (h : ∀ code env, v ≠ .block code env) :
    ∃ x : Page → Page, (∀ p, (x p).cancelled = p.cancelled) ∧
      ∀ {β : Type} (run : Page.RunBlock β) (g : α → β × Env β) (p : Page),
        p.writeContent run (expand g v) = some (x p) := by
  refine ⟨fun p => (p.writeContent (fun _ _ p => some p) v).getD p, fun p => ?_, fun run g p => ?_⟩
  · cases hf : p.failure with
    | some e => simp only [Page.writeContent, hf, Option.getD_some]
    | none =>
        cases v with
        | supplied kind s =>
            simp only [Page.writeContent, hf, Option.getD_some, Page.supply_cancelled]
        | shown w =>
            simp only [Page.writeContent, hf, Option.getD_some, Page.writeData_cancelled]
        | block code env => exact absurd rfl (h code env)
        | _ => simp only [Page.writeContent, hf, Option.getD_some]
  · cases hf : p.failure with
    | some e => simp only [Page.writeContent, hf, Option.getD_some]
    | none =>
        cases v with
        | supplied kind s => simp only [Page.writeContent, hf, expand, Option.getD_some]
        | shown w =>
            simp only [Page.writeContent, hf, expand, Option.getD_some, Page.writeData_expand]
        | block code env => exact absurd rfl (h code env)
        | _ => simp only [Page.writeContent, hf, expand, Option.getD_some]

section Running

variable [Language] {pkg : Package} {bundle : Bundle} {depth : Nat}

private theorem runBlock_follows {m : Nat} (hm : m ≤ depth) (j : Joint pkg bundle depth)
    (env : Env (Joint pkg bundle depth)) :
    Follows (fun p => p.writeContent (pkg.runner m).block (toCode (.block j env)))
      (fun p => p.writeContent (bundle.runner m).block (toNodes (.block j env))) := by
  intro p p' hp hx
  cases hf : p.failure with
  | some e =>
      simp only [Page.writeContent, hf, Option.some.injEq] at hx ⊢
      rw [← hx]
      exact ⟨rfl, hp⟩
  | none =>
      simp only [Page.writeContent, hf, toCode, toNodes, expand] at hx ⊢
      obtain ⟨q, hq, rfl⟩ := Option.map_eq_some_iff.1 hx
      obtain ⟨hy, hc⟩ := j.follows m hm p q hp hq
      refine ⟨by rw [hy, Option.map_some], ?_⟩
      rw [Page.err?_of_not_cancelled hc]
      cases q.failure with
      | none => exact hc
      | some e => exact (Page.fail_cancelled q e).trans hc

theorem writeContent_follows {m : Nat} (hm : m ≤ depth) (v : Value (Joint pkg bundle depth)) :
    Follows (fun p => p.writeContent (pkg.runner m).block (toCode v))
      (fun p => p.writeContent (bundle.runner m).block (toNodes v)) := by
  by_cases h : ∃ code env, v = .block code env
  · obtain ⟨j, env, rfl⟩ := h
    exact runBlock_follows hm j env
  · obtain ⟨x, hx, hdata⟩ := writeContent_data fun code env heq => h ⟨code, env, heq⟩
    simp only [toCode, toNodes, hdata]
    exact follows_of_page hx

theorem writeValue_follows {m : Nat} (hm : m ≤ depth) (v : Value (Joint pkg bundle depth))
    (esc : Escape) :
    Follows (fun p => p.writeValue (pkg.runner m).block (toCode v) esc)
      (fun p => p.writeValue (bundle.runner m).block (toNodes v) esc) := by
  have hcode : (toCode v).isRenderable = v.isRenderable := isRenderable_expand _ v
  have hnodes : (toNodes v).isRenderable = v.isRenderable := isRenderable_expand _ v
  have hdata (p : Page) : p.writeData (toCode v) esc = p.writeData (toNodes v) esc := by
    rw [toCode, toNodes, Page.writeData_expand, Page.writeData_expand]
  cases h : v.isRenderable with
  | true =>
      simp only [Page.writeValue, hcode, hnodes, h, if_true]
      exact writeContent_follows hm v
  | false =>
      simp only [Page.writeValue, hcode, hnodes, h, hdata, Bool.false_eq_true, if_false]
      exact follows_of_page fun p => Page.writeData_cancelled p _ esc

/-! ## Sequences -/

theorem Tracks.afterTerm {programs : List Bytes} {locals : Env Closure} {t : Term}
    {type : ParamType} {given : Page → Value NodeBlock × Page}
    (ht : Passes depth pkg bundle programs locals t type given)
    {x : Value Closure → Page → Option (Page × Option RenderError)}
    {y : Value NodeBlock → Page → Option Page}
    (hxy : ∀ v : Value (Joint pkg bundle depth), Typed type v →
      Tracks (x (toCode v)) (y (toNodes v))) :
    Tracks (fun p => x (termValue programs locals t p).1 (termValue programs locals t p).2)
      fun p => y (given p).1 (given p).2 := by
  intro p p' e hp hx
  obtain ⟨v, q, htyped, hcode, hnodes, hq⟩ := ht p
  simp only [hcode] at hx
  simp only [hnodes]
  exact hxy v htyped q p' e (hq.trans hp) hx

theorem Tracks.flushed {r : Runner} (hr : ∀ name args, Idle (r.function name args))
    {programs : List Bytes} {locals : Env Closure} {ss : List Stmt} {y : Page → Option Page}
    (h : Tracks (runStmts r programs locals ss) y) (pending : Bytes) :
    Tracks (runStmts r programs locals (flushed pending ss)) fun p =>
      if !pending.isEmpty && (p.raw pending).err?.isSome then some (p.raw pending)
      else y (p.raw pending) := by
  rw [Code.flushed]
  cases hpending : pending.isEmpty with
  | true =>
      refine h.of_eq fun p => ?_
      rw [List.isEmpty_iff.1 hpending]
      rfl
  | false =>
      have hraw : Tracks (runStmt r programs locals (.raw pending))
          fun p => some (p.raw pending) :=
        (follows_of_page fun p => Page.raw_cancelled p pending).tracks
      exact hraw.thenUnlessReturned h (runStmts_idle hr programs locals ss)

end Running

end Code

end TagLoom

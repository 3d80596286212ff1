import TagLoom.Proofs.Page.Failure
import TagLoom.Proofs.Rendering.Values

/-!
# Sinks that refuse

Two runs of one operation are compared: on a page whose sink takes everything, and on the same page
over a sink that refuses some writes.  Up to the first refused write the pages agree; from there on
the second one is stuck, and what its sink took is a beginning of what the first one's took.
`Resists` says so of an operation, and what is done one after the other resists when its parts do.
Of supplied markup that takes it to stop at a refused write and return it.
-/

namespace TagLoom

/-- Supplied markup stops at the first refused write and returns it. -/
def Supply.Stops : Supply → Prop
  | .done | .fail _ => True
  | .write _ next =>
      (next none).Stops ∧ ∀ message, next (some message) = .fail (.ofSink message)
  | .ask next => ∀ given, (next given).Stops

/-- What a caller supplies stops at the first refused write and returns it. -/
def Value.Stops {β : Type} : Value β → Prop
  | .supplied _ s => s.Stops
  | _ => True

namespace Sink

abbrev Rule := List Bytes → Bytes → Option Bytes

namespace Rule

def Takes (R : Rule) (writes : List Bytes) : Prop :=
  ∀ before s after, writes = before ++ s :: after → R before s = none

theorem Takes.concat {R : Rule} {writes : List Bytes} {s : Bytes} (h : R.Takes writes)
    (hs : R writes s = none) : R.Takes (writes ++ [s]) := by
  intro before t after heq
  rcases List.eq_nil_or_concat after with rfl | ⟨after', u, rfl⟩
  · obtain ⟨rfl, hlast⟩ := List.append_inj' heq rfl
    rw [List.singleton_inj.1 hlast.symm]
    exact hs
  · rw [List.concat_eq_append, ← List.cons_append, ← List.append_assoc] at heq
    exact h before t after' (List.append_inj' heq rfl).1

end Rule

/-! ## Limits -/

end Sink

open Sink (Rule)

namespace Page

/-- The error of a refused write: the sink's, or the one that wraps it while the writes of a
document in Markdown go out. -/
inductive RefusedAs (writes : List Bytes) (s message : Bytes) : RenderError → Prop where
  | sink : RefusedAs writes s message (.sink message)
  | markdown {text : Bytes} {before after : List Bytes}
      (hdocument : Markdown.htmlWrites text = before ++ s :: after) (hbefore : before <:+ writes) :
      RefusedAs writes s message (.markdown message)

def under (R : Rule) (p : Page) : Page := { p with sink := { p.sink with refusal? := R } }

/-- A page whose sink refuses nothing. -/
def Free (p : Page) : Prop := p.sink.refusal? = fun _ _ => none

/-- Nothing that is on the page would have been refused. -/
structure Whole (R : Rule) (p : Page) : Prop where
  free : p.Free
  takes : R.Takes p.sink.writes

/-- A page that is stuck with the first refused write, beside the page that took it. -/
structure Cut (R : Rule) (full cut : Page) : Prop where
  takes : R.Takes cut.sink.writes
  refused : ∃ s rest message e, full.sink.writes = cut.sink.writes ++ s :: rest ∧
    R cut.sink.writes s = some message ∧ cut.failure = some e ∧
    RefusedAs cut.sink.writes s message e

/-- A page over a sink that refuses, beside the page over one that takes everything. -/
inductive Follows (R : Rule) (full : Page) : Page → Prop where
  | whole (h : full.Whole R) : Follows R full (full.under R)
  | cut {q : Page} (hfree : full.Free) (h : full.Cut R q) : Follows R full q

/-- Over a sink that refuses, an operation does what it does over one that takes everything, up to
the first refused write. -/
def Resists (x : Page → Option Page) : Prop :=
  ∀ ⦃R : Rule⦄ ⦃p p' : Page⦄, p.Whole R → x p = some p' →
    p.sink.writes <+: p'.sink.writes ∧ ∃ q, x (p.under R) = some q ∧ p'.Follows R q

variable {R : Rule} {p p' q : Page}

@[simp] theorem under_failure (R : Rule) (p : Page) : (p.under R).failure = p.failure := rfl

@[simp] theorem under_err? (R : Rule) (p : Page) : (p.under R).err? = p.err? := rfl

theorem under_fail (R : Rule) (p : Page) (e : RenderError) :
    (p.under R).fail e = (p.fail e).under R := by
  simp only [fail, under_failure]
  cases p.failure <;> rfl

theorem fail_sink (p : Page) (e : RenderError) : (p.fail e).sink = p.sink := by
  unfold fail
  split <;> rfl

theorem prefix_of_sink (h : p'.sink = p.sink) : p.sink.writes <+: p'.sink.writes :=
  h ▸ List.prefix_rfl

theorem Whole.of_sink (hp : p.Whole R) (h : p'.sink = p.sink) : p'.Whole R :=
  ⟨by rw [Free, h]; exact hp.free, h ▸ hp.takes⟩

theorem Follows.free (h : p.Follows R q) : p.Free := by
  cases h with
  | whole hp => exact hp.free
  | cut hp _ => exact hp

theorem Cut.isSome (h : p.Cut R q) : q.failure.isSome := by
  obtain ⟨s, rest, message, e, -, -, hfailure, -⟩ := h.refused
  rw [hfailure]
  rfl

theorem Cut.extend (h : p.Cut R q) (hgrows : p.sink.writes <+: p'.sink.writes) : p'.Cut R q := by
  obtain ⟨s, rest, message, e, hwrites, hrest⟩ := h.refused
  obtain ⟨more, hmore⟩ := hgrows
  refine ⟨h.takes, s, rest ++ more, message, e, ?_, hrest⟩
  rw [← hmore, hwrites, List.append_assoc, List.cons_append]

theorem Resists.grows {x : Page → Option Page} (hx : Resists x) (hp : p.Free)
    (h : x p = some p') : p.sink.writes <+: p'.sink.writes ∧ p'.Free := by
  have hwhole : p.Whole fun _ _ => none := ⟨hp, fun _ _ _ _ => rfl⟩
  obtain ⟨hgrows, q, -, hq⟩ := hx hwhole h
  exact ⟨hgrows, hq.free⟩

/-! ## Operations that write nothing -/

theorem resists_of_same {x : Page → Page} (hsink : ∀ p, (x p).sink = p.sink)
    (hunder : ∀ R p, x (p.under R) = (x p).under R) : Resists fun p => some (x p) := by
  intro R p p' hp h
  obtain rfl := Option.some.inj h
  refine ⟨prefix_of_sink (hsink p), _, rfl, ?_⟩
  rw [hunder]
  exact .whole (hp.of_sink (hsink p))

theorem resists_self : Resists some :=
  resists_of_same (x := id) (fun _ => rfl) fun _ _ => rfl

theorem resists_fail (e : RenderError) : Resists fun p => some (p.fail e) :=
  resists_of_same (fun p => fail_sink p e) fun R p => under_fail R p e

/-- What is found does not hang on the sink, and nothing is written. -/
structure Looks {α : Type} (look : Page → α × Page) : Prop where
  sink : ∀ p, (look p).2.sink = p.sink
  under : ∀ R p, look (p.under R) = ((look p).1, (look p).2.under R)

namespace Looks

variable {α γ : Type}

theorem pure (a : α) : Looks fun p => (a, p) := ⟨fun _ => rfl, fun _ _ => rfl⟩

theorem bind {look : Page → α × Page} {next : α → Page → γ × Page} (h : Looks look)
    (hnext : ∀ a, Looks (next a)) : Looks fun p => next (look p).1 (look p).2 where
  sink p := ((hnext _).sink _).trans (h.sink p)
  under R p := by
    simp only [h.under]
    exact (hnext _).under R _

end Looks

theorem Looks.resists {α : Type} {look : Page → α × Page} {x : α → Page → Option Page}
    (hlook : Looks look) (hx : ∀ p, Resists (x (look p).1)) :
    Resists fun p => x (look p).1 (look p).2 := by
  intro R p p' hp h
  obtain ⟨hgrows, q, hq, hfollows⟩ := hx p (hp.of_sink (hlook.sink p)) h
  refine ⟨by rwa [hlook.sink] at hgrows, q, ?_, hfollows⟩
  simp only [hlook.under]
  exact hq

variable {β : Type}

theorem looks_evaluate [Language] (e : Expression) (env : Env β) : Looks fun p => p.evaluate e env where
  sink p := by
    unfold evaluate
    cases p.failure with
    | some _ => rfl
    | none =>
        cases Language.evaluate e env with
        | ok v => rfl
        | error f => exact fail_sink p _
  under R p := by
    simp only [evaluate, under_failure]
    cases p.failure with
    | some _ => rfl
    | none =>
        cases Language.evaluate e env with
        | ok v => rfl
        | error f => simp only [under_fail]

theorem looks_entries (v : Value β) : Looks fun p => p.entries v where
  sink p := by
    unfold entries
    cases p.failure with
    | some _ => rfl
    | none =>
        cases v.entries? with
        | none => exact fail_sink p _
        | some es =>
            dsimp only
            split
            · exact fail_sink p _
            · rfl
  under R p := by
    simp only [entries, under_failure]
    cases p.failure with
    | some _ => rfl
    | none =>
        cases v.entries? with
        | none => simp only [under_fail]
        | some es => cases v.losesKey <;> simp [under_fail]

theorem Resists.thenMend {x : Page → Option Page} {mend : Page → Page} (hx : Resists x)
    (hsink : ∀ p, (mend p).sink = p.sink) (hunder : ∀ R p, mend (p.under R) = (mend p).under R)
    (hstuck : ∀ p : Page, p.failure.isSome → mend p = p) : Resists fun p => (x p).map mend := by
  intro R p p' hp h
  obtain ⟨p₁, hp₁, rfl⟩ := Option.map_eq_some_iff.1 h
  obtain ⟨hgrows, q, hq, hfollows⟩ := hx hp hp₁
  refine ⟨by rwa [hsink], mend q, by simp only [hq, Option.map_some], ?_⟩
  cases hfollows with
  | whole hwhole =>
      rw [hunder]
      exact .whole (hwhole.of_sink (hsink p₁))
  | cut hfree hcut =>
      rw [hstuck q hcut.isSome]
      exact .cut (by rw [Free, hsink]; exact hfree) (hcut.extend (prefix_of_sink (hsink p₁)))

/-- What a page with an error keeps as it is need only be looked at on pages without one. -/
theorem Resists.of_failure {x : Page → Option Page}
    (hfailed : ∀ p : Page, p.failure.isSome → x p = some p)
    (hx : ∀ ⦃R p p'⦄, p.Whole R → p.failure = none → x p = some p' →
      p.sink.writes <+: p'.sink.writes ∧ ∃ q, x (p.under R) = some q ∧ p'.Follows R q) :
    Resists x := by
  intro R p p' hp h
  cases hfailure : p.failure with
  | none => exact hx hp hfailure h
  | some e =>
      have hsome : p.failure.isSome := by rw [hfailure]; rfl
      rw [hfailed p hsome] at h
      obtain rfl := Option.some.inj h
      exact ⟨List.prefix_rfl, _, hfailed _ hsome, .whole hp⟩

/-! ## Writes -/

def wrote (p : Page) (s : Bytes) : Page :=
  { p with sink := { p.sink with writes := p.sink.writes ++ [s] } }

theorem put_free (hp : p.Free) (hfailure : p.failure = none) (s : Bytes)
    (refused : Bytes → RenderError) : p.put s refused = p.wrote s := by
  obtain ⟨⟨writes, refusal⟩, failure, cancelled⟩ := p
  obtain rfl : refusal = fun _ _ => none := hp
  obtain rfl : failure = none := hfailure
  rfl

theorem put_under (hfailure : p.failure = none) (R : Rule) (s : Bytes)
    (refused : Bytes → RenderError) :
    (p.under R).put s refused = match R p.sink.writes s with
      | none => (p.wrote s).under R
      | some message => { p.under R with failure := some (refused message) } := by
  obtain ⟨⟨writes, refusal⟩, failure, cancelled⟩ := p
  obtain rfl : failure = none := hfailure
  simp only [put, under, Sink.write]
  cases R writes s <;> rfl

theorem Whole.wrote {s : Bytes} (hp : p.Whole R) (hs : R p.sink.writes s = none) :
    (p.wrote s).Whole R := ⟨hp.free, hp.takes.concat hs⟩

theorem Whole.cut {s message : Bytes} {e : RenderError} (hp : p.Whole R)
    (hs : R p.sink.writes s = some message) (he : RefusedAs p.sink.writes s message e) :
    (p.wrote s).Cut R { p.under R with failure := some e } :=
  ⟨hp.takes, s, [], message, e, rfl, hs, rfl, he⟩

theorem resists_put_sink (s : Bytes) : Resists fun p => some (p.put s .sink) := by
  refine .of_failure (fun p h => by rw [put_of_failure h]) fun R p p' hp hfailure h => ?_
  rw [put_free hp.free hfailure] at h
  obtain rfl := Option.some.inj h
  refine ⟨⟨[s], rfl⟩, _, rfl, ?_⟩
  rw [put_under hfailure]
  cases hs : R p.sink.writes s with
  | none => exact .whole (hp.wrote hs)
  | some message => exact .cut hp.free (hp.cut hs .sink)

theorem resists_raw (s : Bytes) : Resists fun p => some (p.raw s) := by
  unfold raw
  by_cases hempty : s.isEmpty
  · simp only [hempty, if_true]
    exact resists_self
  · simp only [hempty, if_false, Bool.false_eq_true]
    exact resists_put_sink s

/-! ## Documents in Markdown -/

def putAll (texts : List Bytes) (p : Page) : Page := texts.foldl (fun p s => p.put s .markdown) p

theorem putAll_of_failure (h : p.failure.isSome) (texts : List Bytes) : putAll texts p = p := by
  induction texts with
  | nil => rfl
  | cons s texts ih =>
      rw [putAll, List.foldl_cons, put_of_failure h]
      exact ih

theorem putAll_free (hp : p.Free) (hfailure : p.failure = none) (texts : List Bytes) :
    putAll texts p = { p with sink := { p.sink with writes := p.sink.writes ++ texts } } := by
  induction texts generalizing p with
  | nil => rw [List.append_nil]; rfl
  | cons s texts ih =>
      rw [putAll, List.foldl_cons, put_free hp hfailure]
      refine (ih (p := p.wrote s) hp hfailure).trans ?_
      simp only [wrote, List.append_assoc, List.singleton_append]

/-- Part of the way through a document, what is left of it is written up to the first refusal. -/
theorem follows_putAll {text : Bytes} {before after : List Bytes} (hp : p.Whole R)
    (hfailure : p.failure = none) (hdocument : Markdown.htmlWrites text = before ++ after)
    (hbefore : before <:+ p.sink.writes) :
    (putAll after p).Follows R (putAll after (p.under R)) := by
  induction after generalizing p before with
  | nil => exact .whole hp
  | cons s after ih =>
      have hfull : putAll (s :: after) p = putAll after (p.wrote s) := by
        rw [← put_free hp.free hfailure s .markdown]
        rfl
      have hstep : putAll (s :: after) (p.under R) = putAll after ((p.under R).put s .markdown) := rfl
      rw [hfull, hstep, put_under hfailure]
      cases hs : R p.sink.writes s with
      | none =>
          have hdocument' : Markdown.htmlWrites text = (before ++ [s]) ++ after := by
            rw [hdocument, List.append_assoc, List.singleton_append]
          obtain ⟨earlier, hearlier⟩ := hbefore
          refine ih (hp.wrote hs) hfailure hdocument' ⟨earlier, ?_⟩
          rw [← List.append_assoc, hearlier]
          rfl
      | some message =>
          rw [putAll_of_failure (p := { p.under R with failure := _ }) rfl,
            putAll_free (p := p.wrote s) hp.free hfailure]
          have hcut := hp.cut hs (RefusedAs.markdown hdocument hbefore)
          exact .cut hp.free (hcut.extend (List.prefix_append _ _))

/-- The writes stand apart from the document they are of, which is not looked into. -/
theorem resists_putAll {text : Bytes} {texts : List Bytes}
    (hdocument : Markdown.htmlWrites text = texts) : Resists fun p => some (putAll texts p) := by
  refine .of_failure (fun p h => by rw [putAll_of_failure h]) fun R p p' hp hfailure h => ?_
  obtain rfl := Option.some.inj h
  refine ⟨?_, _, rfl, follows_putAll hp hfailure hdocument List.nil_suffix⟩
  rw [putAll_free hp.free hfailure]
  exact List.prefix_append _ _

theorem resists_writeMarkdown (v : Value β) : Resists fun p => some (p.writeMarkdown v) := by
  by_cases hnil : v = .nil
  · subst hnil
    exact resists_self
  · have heq (p : Page) : p.writeMarkdown v = putAll (Markdown.htmlWrites v.toText) p := by
      rw [writeMarkdown]
      · rfl
      · exact hnil
    simp only [heq]
    exact resists_putAll rfl

/-! ## Supplied markup -/

theorem supply_write (hfailure : p.failure = none) (hp : p.Free) (text : Bytes)
    (next : Option Bytes → Supply) :
    p.supply (.write text next) = (p.wrote text).supply (next none) := by
  obtain ⟨⟨writes, refusal⟩, failure, cancelled⟩ := p
  obtain rfl : refusal = fun _ _ => none := hp
  rfl

theorem supply_grows (s : Supply) (hp : p.Free) (hfailure : p.failure = none) :
    p.sink.writes <+: (p.supply s).sink.writes ∧ (p.supply s).Free := by
  induction s generalizing p with
  | done => exact ⟨List.prefix_rfl, hp⟩
  | fail e => exact ⟨prefix_of_sink (fail_sink p _), by rw [Free, supply, fail_sink]; exact hp⟩
  | write text next ih =>
      rw [supply_write hfailure hp]
      obtain ⟨hgrows, hfree⟩ := ih none (p := p.wrote text) hp hfailure
      exact ⟨(List.prefix_append _ _).trans hgrows, hfree⟩
  | ask next ih => exact ih p.cancelled hp hfailure

theorem follows_supply {s : Supply} (hs : s.Stops) (hp : p.Whole R) (hfailure : p.failure = none) :
    (p.supply s).Follows R ((p.under R).supply s) := by
  induction s generalizing p with
  | done => exact .whole hp
  | fail e =>
      rw [supply, supply, under_fail]
      exact .whole (hp.of_sink (fail_sink p _))
  | write text next ih =>
      rw [supply_write hfailure hp.free, supply, Sink.write]
      cases hrefusal : R p.sink.writes text with
      | none =>
          simp only [under, hrefusal]
          exact ih none hs.1 (hp.wrote hrefusal) hfailure
      | some message =>
          simp only [under, hrefusal, hs.2]
          obtain ⟨hgrows, hfree⟩ := supply_grows (next none) (p := p.wrote text) hp.free hfailure
          have hcut := (hp.cut hrefusal .sink).extend hgrows
          simp only [supply, fail, hfailure]
          exact .cut hfree hcut
  | ask next ih => exact ih p.cancelled (hs p.cancelled) hp hfailure

/-! ## Values -/

theorem resists_writeData (v : Value β) (esc : Escape) : Resists fun p => some (p.writeData v esc) := by
  refine .of_failure (fun p h => by rw [writeData_of_failure h]) fun R p p' hp hfailure h => ?_
  by_cases hnil : v = .nil
  · subst hnil
    have heq (p : Page) : p.writeData (.nil : Value β) esc = p := by
      unfold writeData
      split <;> simp_all
    simp only [heq] at h ⊢
    exact resists_self hp h
  by_cases hcontent : v = .noContent
  · subst hcontent
    have heq (p : Page) : p.writeData (.noContent : Value β) esc = p := by
      unfold writeData
      split <;> simp_all
    simp only [heq] at h ⊢
    exact resists_self hp h
  · simp only [writeData_of_ne_nil hfailure hnil hcontent] at h
    simp only [writeData_of_ne_nil (p := p.under R) hfailure hnil hcontent]
    cases htext : v.text? with
    | some s =>
        rw [htext] at h
        exact resists_raw (esc.apply s) hp h
    | none =>
        rw [htext] at h
        exact resists_fail _ hp h

theorem resists_writeSanitized (v : Value β) (policy : Bytes) :
    Resists fun p => some (p.writeSanitized v policy) := by
  refine .of_failure (fun p h => by rw [writeSanitized_of_failure h]) fun R p p' hp hfailure h => ?_
  by_cases hnil : v = .nil
  · subst hnil
    have heq (p : Page) : p.writeSanitized (.nil : Value β) policy = p := by
      unfold writeSanitized
      split <;> simp_all
    simp only [heq] at h ⊢
    exact resists_self hp h
  · simp only [writeSanitized_of_ne_nil hfailure hnil] at h
    simp only [writeSanitized_of_ne_nil (p := p.under R) hfailure hnil]
    cases hrules : if policy.isEmpty then some Policy.ugc else Policy.ofLabel? policy with
    | some rules =>
        rw [hrules] at h
        exact resists_raw _ hp h
    | none =>
        rw [hrules] at h
        exact resists_fail _ hp h

def leave (p : Page) : Page :=
  match p.err? with
  | some e => p.fail e
  | none => p

theorem leave_sink (p : Page) : p.leave.sink = p.sink := by
  unfold leave
  split
  · exact fail_sink p _
  · rfl

theorem leave_under (R : Rule) (p : Page) : (p.under R).leave = p.leave.under R := by
  unfold leave
  rw [under_err?]
  cases p.err? with
  | none => rfl
  | some e => exact under_fail R p e

theorem leave_of_failure (p : Page) (h : p.failure.isSome) : p.leave = p := by
  unfold leave
  split
  · exact fail_of_failure h _
  · rfl

section Contents

variable {run : RunBlock β}
  (hrun : ∀ code env, Value.AllEntries Value.Stops env → Resists (run code env)) {v : Value β}
  (hv : v.All Value.Stops)
include hrun hv

theorem resists_writeContent : Resists fun p => p.writeContent run v := by
  refine .of_failure (fun p h => writeContent_of_failure h run v) fun R p p' hp hfailure h => ?_
  have hunder : (p.under R).failure = none := hfailure
  simp only [writeContent, hfailure] at h
  simp only [writeContent, hunder]
  cases v with
  | supplied kind s =>
      obtain rfl := Option.some.inj h
      exact ⟨(supply_grows s hp.free hfailure).1, _, rfl, follows_supply hv hp hfailure⟩
  | shown v => exact resists_writeData v .html hp h
  | block code env =>
      exact (hrun code env hv.2).thenMend leave_sink leave_under leave_of_failure hp h
  | _ => exact resists_self hp h

theorem resists_writeValue (esc : Escape) : Resists fun p => p.writeValue run v esc := by
  unfold writeValue
  by_cases hrenderable : v.isRenderable
  · simp only [hrenderable, if_true]
    exact resists_writeContent hrun hv
  · simp only [hrenderable, if_false, Bool.false_eq_true]
    exact resists_writeData v esc

end Contents

end Page

end TagLoom

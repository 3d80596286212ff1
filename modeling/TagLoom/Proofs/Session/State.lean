import TagLoom.Proofs.Session.Readers

/-!
# What the state of a session promises

Whoever finds a session failed has something to load.  Whoever finds it active has templates to
load, unless the first good pass has set the state already and is still to publish its snapshot.
-/

namespace TagLoom

open Move (outcomes steps loads)
open Snapshot (Later IsGood)

namespace Live

variable {o : SessionOptions} {ms ms' : List Move} {m : Move} {l l' : Live}

/-- The first good pass has set the state, and its snapshot is the next thing to be published. -/
def IsAnnounced (l : Live) : Prop :=
  ∃ found b, l.underway = some ⟨found, .success b, [.publish (.ofBuild b 1)]⟩

/-- Part of the way through a recompilation, the state is active only when templates are there or
announced. -/
theorem good_or_announced_of_steps {s : Shared} {os : List PassOutcome} {outcome : PassOutcome}
    (h : s.Reflects os) (ho : outcome.IsSound) {done rest : List Shared.Step}
    (hsteps : s.steps outcome = done ++ rest) (hactive : (done.foldl Shared.apply s).state = .active) :
    IsGood (done.foldl Shared.apply s).current ∨
      IsAnnounced ⟨done.foldl Shared.apply s, some ⟨s, outcome, rest⟩⟩ := by
  cases outcome with
  | success b =>
      simp only [Shared.steps, List.cons_eq_append_iff, List.nil_eq_append_iff] at hsteps
      rcases hsteps with ⟨rfl, rfl⟩ | ⟨done, rfl, ⟨rfl, rfl⟩ | ⟨done, rfl, hsteps⟩⟩
      · exact .inl (h.isGood_iff.2 hactive)
      · cases hactive
      · rcases hsteps with ⟨rfl, rfl⟩ | ⟨done, rfl, rfl, rfl⟩
        · by_cases hs : s.state = .active
          · exact .inl (h.isGood_iff.2 hs)
          · have hgeneration : s.generation = 0 := by
              rw [h.generation, PassOutcome.builds_eq_nil_iff.2 (h.not_mem_of_ne hs)]
              rfl
            exact .inr ⟨s, b, by rw [hgeneration]⟩
        · exact .inl ⟨_, rfl, Shared.isDiagnostic_ofBuild ho _⟩
  | failure errors builtAt =>
      simp only [Shared.steps] at hsteps
      split at hsteps
      · simp only [List.cons_eq_append_iff, List.nil_eq_append_iff] at hsteps
        rcases hsteps with ⟨rfl, -⟩ | ⟨done, rfl, hsteps⟩
        · exact .inl (h.isGood_iff.2 hactive)
        · rcases hsteps with ⟨rfl, -⟩ | ⟨done, rfl, ⟨rfl, -⟩ | ⟨done, rfl, ⟨rfl, -⟩ | ⟨_, rfl, rfl, -⟩⟩⟩
          all_goals cases hactive
      · rename_i hbuilt
        have hs : s.state = .active := by
          by_contra hs
          exact hbuilt (h.isUnbuilt_iff.2 hs)
        have hgood := h.isGood_iff.2 hs
        simp only [List.cons_eq_append_iff, List.nil_eq_append_iff] at hsteps
        rcases hsteps with ⟨rfl, -⟩ | ⟨done, rfl, ⟨rfl, -⟩ | ⟨_, rfl, rfl, -⟩⟩
        all_goals exact .inl hgood

theorem Told.good_or_announced (h : l.Told ms) (hactive : l.shared.state = .active) :
    IsGood l.shared.current ∨ l.IsAnnounced := by
  cases h.stands with
  | between =>
      exact .inl (h.reflects_all.isGood_iff.2 hactive)
  | during hms hsteps =>
      exact good_or_announced_of_steps (h.reflects hms) (h.sound _ (by simp [hms])) hsteps hactive

/-- As long as the first good pass is only announced, there are no templates to load. -/
theorem Told.not_good_of_announced (h : l.Told ms) (hannounced : l.IsAnnounced) :
    ¬ IsGood l.shared.current := by
  obtain ⟨found, b, hunderway⟩ := hannounced
  cases h.stands with
  | between => cases hunderway
  | @during os _ done _ hms hsteps =>
      cases hunderway
      have hreflects := h.reflects hms
      change [Shared.Step.enter .recompiling, .succeed] ++ [_] = done ++ [_] at hsteps
      obtain ⟨rfl, hpublish⟩ := List.append_inj' hsteps rfl
      have hgeneration : (Shared.after os).generation = 0 := by
        injection hpublish with hpublish
        injection hpublish with hpublish
        exact Nat.succ.inj (congrArg Snapshot.generation hpublish)
      have hne : (Shared.after os).state ≠ .active := by
        rw [hreflects.generation, List.length_eq_zero_iff] at hgeneration
        intro hactive
        obtain ⟨b', hb'⟩ := hreflects.active.1 hactive
        exact PassOutcome.builds_eq_nil_iff.1 hgeneration b' hb'
      exact (hreflects.current_of_ne hne).2

theorem Told.good_or_announced_step (h : l.Told ms) (hstep : Step o l m l')
    (hl : IsGood l.shared.current ∨ l.IsAnnounced) :
    IsGood l'.shared.current ∨ l'.IsAnnounced := by
  rcases hl with hgood | ⟨found, b, hunderway⟩
  · exact .inl ((h.later hstep).good hgood)
  · cases hstep with
    | call => cases hunderway
    | step =>
        cases hunderway
        cases h.stands with
        | during hms _ =>
            have hsound := h.sound (.success b) (by simp [hms])
            exact .inl ⟨_, rfl, Shared.isDiagnostic_ofBuild hsound 1⟩
    | tell => cases hunderway
    | read use => exact .inr ⟨found, b, hunderway⟩
    | ask => exact .inr ⟨found, b, hunderway⟩
    | askErrors => exact .inr ⟨found, b, hunderway⟩

theorem Told.good_or_announced_runs (h : l.Told ms) (hruns : Runs o l ms' l')
    (hl : IsGood l.shared.current ∨ l.IsAnnounced) :
    IsGood l'.shared.current ∨ l'.IsAnnounced := by
  induction hruns generalizing ms with
  | nil => exact hl
  | cons first rest ih => exact ih (h.move first) (h.good_or_announced_step first hl)

theorem Told.later_runs (h : l.Told ms) (hruns : Runs o l ms' l') :
    Later l.shared.current l'.shared.current := by
  induction hruns generalizing ms with
  | nil => exact .refl _
  | cons first rest ih => exact (h.later first).trans (ih (h.move first))

/-- Part of the way through a recompilation, the state is failed only when errors are there. -/
theorem isSome_of_steps {s : Shared} {os : List PassOutcome} {outcome : PassOutcome}
    (h : s.Reflects os) {done rest : List Shared.Step} (hsteps : s.steps outcome = done ++ rest)
    (hfailed : (done.foldl Shared.apply s).state = .failed) :
    (done.foldl Shared.apply s).current.isSome = true := by
  have hstart : s.state = .failed → s.current.isSome = true := by
    intro hs
    obtain ⟨errors, builtAt, -, hcurrent, -⟩ := h.showsErrors hs
    rw [hcurrent]
    rfl
  cases outcome with
  | success b =>
      simp only [Shared.steps, List.cons_eq_append_iff, List.nil_eq_append_iff] at hsteps
      rcases hsteps with ⟨rfl, -⟩ | ⟨done, rfl, ⟨rfl, -⟩ | ⟨done, rfl, ⟨rfl, -⟩ | ⟨_, rfl, rfl, -⟩⟩⟩
      · exact hstart hfailed
      all_goals cases hfailed
  | failure errors builtAt =>
      simp only [Shared.steps] at hsteps
      split at hsteps
      · simp only [List.cons_eq_append_iff, List.nil_eq_append_iff] at hsteps
        rcases hsteps with ⟨rfl, -⟩ | ⟨done, rfl, ⟨rfl, -⟩ | ⟨done, rfl, hsteps⟩⟩
        · exact hstart hfailed
        · cases hfailed
        · -- the errors are published before the state is set
          rcases hsteps with ⟨rfl, -⟩ | ⟨done, rfl, ⟨rfl, -⟩ | ⟨_, rfl, rfl, -⟩⟩
          all_goals rfl
      · simp only [List.cons_eq_append_iff, List.nil_eq_append_iff] at hsteps
        rcases hsteps with ⟨rfl, -⟩ | ⟨done, rfl, ⟨rfl, -⟩ | ⟨_, rfl, rfl, -⟩⟩
        · exact hstart hfailed
        all_goals cases hfailed

theorem Told.isSome_of_failed (h : l.Told ms) (hfailed : l.shared.state = .failed) :
    l.shared.current.isSome = true := by
  cases h.stands with
  | between =>
      obtain ⟨errors, builtAt, -, hcurrent, -⟩ := h.reflects_all.showsErrors hfailed
      rw [hcurrent]
      rfl
  | during hms hsteps => exact isSome_of_steps (h.reflects hms) hsteps hfailed

/-- Whatever runs on from an active moment has templates, unless the first good pass has only
announced them; whatever runs on from a failed one has something. -/
theorem current_of_state (h : Runs o .start ms l) (hlater : Runs o l ms' l') :
    (l.shared.state = .active → (IsGood l'.shared.current ↔ ¬ l'.IsAnnounced)) ∧
      (l.shared.state = .failed → l'.shared.current.isSome = true) := by
  constructor
  · intro hactive
    have hor := h.told.good_or_announced_runs hlater (h.told.good_or_announced hactive)
    have htold' := h.told.runs hlater
    exact ⟨fun hgood hannounced => htold'.not_good_of_announced hannounced hgood, hor.resolve_right⟩
  · intro hfailed
    exact (h.told.later_runs hlater).present (h.told.isSome_of_failed hfailed)

/-- What is loaded any time after the state was asked for: templates if it was active, unless the
first good pass has only announced them; something if it was failed. -/
theorem load_after_ask {state : SessionState} {use : Reading} {loaded : Option Snapshot}
    (h : Runs o .start (ms ++ [.ask state]) l) (hlater : Runs o l (ms' ++ [.read use loaded]) l') :
    (state = .active → (IsGood loaded ↔ ¬ l'.IsAnnounced)) ∧
      (state = .failed → loaded.isSome = true) := by
  obtain ⟨_, hms, hask⟩ := h.split
  obtain ⟨_, hms', hread⟩ := hlater.split
  cases hask with
  | cons asked hrest =>
      cases asked
      cases hrest
      cases hread with
      | cons read hrest' =>
          cases read
          cases hrest'
          exact current_of_state hms hms'

def firstPass (b : Build) : List Move :=
  [.call (.success b), .step (.enter .recompiling), .step .succeed] ++ [.ask .active]

def announced (b : Build) : Live :=
  ⟨⟨.active, [], 1, none⟩, some ⟨.initial, .success b, [.publish (.ofBuild b 1)]⟩⟩

theorem runs_firstPass {b : Build} (hb : bare.Ends (.success b)) :
    Runs bare .start (firstPass b) (announced b) :=
  .cons (.call hb) <| .cons .step <| .cons .step <| .cons .ask .nil

/-- Once the first good pass has published, its templates are loaded. -/
theorem load_after_ask_firstPass : ∃ b l, Runs bare .start (firstPass b) (announced b) ∧
    Runs bare (announced b) ([.step (.publish (.ofBuild b 1))] ++ [.read .load (some (.ofBuild b 1))]) l ∧
    IsGood (some (.ofBuild b 1)) := by
  obtain ⟨b, hb⟩ := bare_succeeds
  have hlater : Runs bare (announced b)
      ([.step (.publish (.ofBuild b 1))] ++ [.read .load (some (.ofBuild b 1))])
      ⟨⟨.active, [], 1, some (.ofBuild b 1)⟩, some ⟨.initial, .success b, []⟩⟩ :=
    .cons .step <| .cons (.read .load) .nil
  refine ⟨b, _, runs_firstPass hb, hlater, ((load_after_ask (runs_firstPass hb) hlater).1 rfl).2 ?_⟩
  rintro ⟨found, b', hunderway⟩
  cases hunderway

/-- Before, there is nothing to load although the session is active. -/
theorem not_good_after_ask_active : ¬ ∀ (o : SessionOptions) (ms ms' : List Move) (l l' : Live)
    (use : Reading) (loaded : Option Snapshot), Runs o .start (ms ++ [.ask .active]) l →
      Runs o l (ms' ++ [.read use loaded]) l' → IsGood loaded := by
  intro h
  obtain ⟨b, hb⟩ := bare_succeeds
  have hread : Runs bare (announced b) ([] ++ [.read .load none]) (announced b) :=
    .cons (.read .load) .nil
  obtain ⟨snapshot, hsnapshot, -⟩ := h bare _ [] _ _ .load none (runs_firstPass hb) hread
  cases hsnapshot

end Live

end TagLoom

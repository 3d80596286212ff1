import TagLoom.Proofs.Session.Run

/-!
# What readers of a session see

Readers load a snapshot at any moment, also between two steps of a recompilation.  The snapshot is
the last one published, and no load gives an older one than the loads before it.
-/

namespace TagLoom

open Move (outcomes steps loads isTell)

def Snapshot.generationOf (loaded : Option Snapshot) : Nat := (loaded.map (·.generation)).getD 0

def Snapshot.IsGood (loaded : Option Snapshot) : Prop :=
  ∃ snapshot, loaded = some snapshot ∧ snapshot.isDiagnostic = false

/-- What may be loaded after something else was. -/
structure Snapshot.Later (earlier later : Option Snapshot) : Prop where
  generation : generationOf earlier ≤ generationOf later
  good : IsGood earlier → IsGood later
  present : earlier.isSome = true → later.isSome = true

namespace Snapshot.Later

theorem refl (a : Option Snapshot) : Later a a := ⟨Nat.le_refl _, id, id⟩

theorem trans {a b c : Option Snapshot} (hab : Later a b) (hbc : Later b c) : Later a c :=
  ⟨Nat.le_trans hab.generation hbc.generation, hbc.good ∘ hab.good, hbc.present ∘ hab.present⟩

end Snapshot.Later

open Snapshot (Later IsGood)

namespace Shared

variable {s : Shared} {os : List PassOutcome} {o : PassOutcome}

theorem Reflects.current_of_ne (h : s.Reflects os) (hs : s.state ≠ .active) :
    Snapshot.generationOf s.current = 0 ∧ ¬ IsGood s.current := by
  cases hcurrent : s.current with
  | none => simp [Snapshot.generationOf, IsGood]
  | some snapshot =>
      have hfailed : s.state = .failed := by
        have hidle : s.state ≠ .idle := fun hidle => by simp [h.nothing.2 hidle] at hcurrent
        have hne := h.state_ne
        cases hstate : s.state <;> simp_all
      obtain ⟨errors, builtAt, -, hshown, hgeneration⟩ := h.showsErrors hfailed
      have hdiagnostic := (h.diagnostic snapshot hcurrent).2 hfailed
      rw [hcurrent, Option.some.injEq] at hshown
      rw [hshown]
      refine ⟨hgeneration, ?_⟩
      rintro ⟨shown, hsame, hgood⟩
      rw [Option.some.injEq] at hsame
      rw [← hsame, ← hshown, hdiagnostic] at hgood
      contradiction

theorem Reflects.isGood_iff (h : s.Reflects os) : IsGood s.current ↔ s.state = .active := by
  constructor
  · intro hgood
    by_contra hs
    exact (h.current_of_ne hs).2 hgood
  · intro hs
    obtain ⟨b, -, hcurrent⟩ := h.showsBuild hs
    refine ⟨_, hcurrent, ?_⟩
    have hdiagnostic := h.diagnostic _ hcurrent
    simpa [hs] using hdiagnostic

theorem Reflects.later_ofErrors (h : s.Reflects os) (hs : s.state ≠ .active)
    (errors : List Diagnostic) (builtAt : Bytes) :
    Later s.current (some (.ofErrors errors builtAt)) :=
  ⟨Nat.le_of_eq (h.current_of_ne hs).1, fun hgood => absurd hgood (h.current_of_ne hs).2, fun _ => rfl⟩

theorem Reflects.later_ofBuild (h : s.Reflects os) {b : Build}
    (ho : (PassOutcome.success b).IsSound) :
    Later s.current (some (.ofBuild b (s.generation + 1))) := by
  refine ⟨?_, fun _ => ⟨_, rfl, isDiagnostic_ofBuild ho _⟩, fun _ => rfl⟩
  by_cases hs : s.state = .active
  · obtain ⟨b', -, hcurrent⟩ := h.showsBuild hs
    rw [hcurrent]
    exact Nat.le_succ s.generation
  · rw [(h.current_of_ne hs).1]
    exact Nat.zero_le _

theorem current_foldl_apply (s : Shared) (steps : List Step) :
    (steps.foldl apply s).current = (published steps).getLast?.or s.current := by
  induction steps using List.reverseRecOn with
  | nil => rfl
  | append_singleton steps a ih =>
      rw [List.foldl_concat, published_append]
      cases a with
      | publish snapshot => simp [apply, published]
      | _ => simpa [apply, published] using ih

theorem published_steps (s : Shared) (o : PassOutcome) :
    published (s.steps o) = match o with
      | .success b => [.ofBuild b (s.generation + 1)]
      | .failure errors builtAt =>
          if isUnbuilt s.state then [.ofErrors errors builtAt] else [] := by
  cases o with
  | success b => rfl
  | failure errors builtAt =>
      simp only [steps]
      split <;> rfl

theorem Reflects.later_of_published (h : s.Reflects os) (ho : o.IsSound) {snapshot : Snapshot}
    (hsnapshot : published (s.steps o) = [snapshot]) : Later s.current (some snapshot) := by
  rw [published_steps] at hsnapshot
  cases o with
  | success b =>
      cases hsnapshot
      exact h.later_ofBuild ho
  | failure errors builtAt =>
      dsimp only at hsnapshot
      split at hsnapshot
      · rename_i hunbuilt
        cases hsnapshot
        exact h.later_ofErrors (h.isUnbuilt_iff.1 hunbuilt) errors builtAt
      · cases hsnapshot

theorem length_published_steps (s : Shared) (o : PassOutcome) :
    (published (s.steps o)).length ≤ 1 := by
  rw [published_steps]
  split
  · exact Nat.le_refl 1
  · split
    · exact Nat.le_refl 1
    · exact Nat.zero_le 1

theorem Reflects.later_apply (h : s.Reflects os) (ho : o.IsSound) {done rest : List Step} {a : Step}
    (hsteps : s.steps o = done ++ a :: rest) :
    Later (done.foldl apply s).current ((done.foldl apply s).apply a).current := by
  cases a with
  | publish snapshot =>
      have hsplit : published (s.steps o) = published done ++ snapshot :: published rest := by
        rw [hsteps, published_append]
        rfl
      have hlength := length_published_steps s o
      rw [hsplit, List.length_append, List.length_cons] at hlength
      have hdone : published done = [] := List.length_eq_zero_iff.1 (by omega)
      have hrest : published rest = [] := List.length_eq_zero_iff.1 (by omega)
      rw [current_foldl_apply, hdone]
      exact h.later_of_published ho (by rw [hsplit, hdone, hrest]; rfl)
  | _ => exact .refl _

end Shared

/-! ## Any moment of a run -/

/-- Where a session stands after some moves: between calls, or part of the way through the steps of
the last one. -/
inductive Live.Stands (ms : List Move) : Live → Prop where
  | between : Stands ms ⟨.after (outcomes ms), none⟩
  | during {os : List PassOutcome} {o : PassOutcome} {done rest : List Shared.Step}
      (hms : outcomes ms = os ++ [o]) (hsteps : (Shared.after os).steps o = done ++ rest) :
      Stands ms ⟨done.foldl Shared.apply (.after os), some ⟨.after os, o, rest⟩⟩

/-- What is true of a session after some moves. -/
structure Live.Told (ms : List Move) (l : Live) : Prop where
  sound : ∀ o ∈ outcomes ms, o.IsSound
  stands : l.Stands ms
  current : l.shared.current = (Shared.published (steps ms)).getLast?
  loaded : ∀ seen ∈ loads ms, Later seen l.shared.current
  ordered : (loads ms).Pairwise Later

namespace Live

variable {o : SessionOptions} {ms ms' : List Move} {m : Move} {l l' : Live}

theorem told_start : Told [] .start := ⟨by simp [outcomes], .between, rfl, by simp [loads], .nil⟩

theorem Stands.congr (h : l.Stands ms) (hms : outcomes ms' = outcomes ms) : l.Stands ms' := by
  cases h with
  | between => rw [← hms]; exact .between
  | during hos hsteps => exact .during (hms.trans hos) hsteps

theorem Told.concat (h : l.Told ms) (hout : outcomes [m] = []) (hsteps : steps [m] = [])
    (hloads : ∀ seen ∈ loads [m], seen = l.shared.current) : l.Told (ms ++ [m]) where
  sound := by simpa [hout] using h.sound
  stands := h.stands.congr (by simp [hout])
  current := by simpa [hsteps] using h.current
  loaded := by
    intro seen hseen
    rw [Move.loads_append, List.mem_append] at hseen
    rcases hseen with hseen | hseen
    · exact h.loaded seen hseen
    · rw [hloads seen hseen]
      exact .refl _
  ordered := by
    rw [Move.loads_append, List.pairwise_append]
    refine ⟨h.ordered, ?_, fun a ha b hb => ?_⟩
    · cases m <;> simp [loads]
    · rw [hloads b hb]
      exact h.loaded a ha

theorem Told.reflects (h : l.Told ms) {os : List PassOutcome} {rest : List PassOutcome}
    (hms : outcomes ms = os ++ rest) : (Shared.after os).Reflects os :=
  Shared.reflects_after fun o ho => h.sound o (by rw [hms]; exact List.mem_append_left _ ho)

theorem Told.reflects_all (h : l.Told ms) : (Shared.after (outcomes ms)).Reflects (outcomes ms) :=
  h.reflects (List.append_nil _).symm

theorem current_apply {s : Shared} {taken : List Shared.Step}
    (h : s.current = (Shared.published taken).getLast?) (a : Shared.Step) :
    (s.apply a).current = (Shared.published (taken ++ [a])).getLast? := by
  rw [Shared.published_append]
  cases a with
  | publish snapshot => simp [Shared.apply, Shared.published]
  | _ => simpa [Shared.apply, Shared.published] using h

theorem Told.call {s : Shared} {outcome : PassOutcome} (h : Told ms ⟨s, none⟩)
    (ho : o.Ends outcome) :
    Told (ms ++ [Move.call outcome]) ⟨s, some ⟨s, outcome, s.steps outcome⟩⟩ where
  sound := by
    intro p hp
    rw [Move.outcomes_append, List.mem_append] at hp
    rcases hp with hp | hp
    · exact h.sound p hp
    · rw [List.mem_singleton.1 hp]
      exact ho.isSound
  stands := by
    cases h.stands with
    | between => exact .during (Move.outcomes_append ms [.call outcome]) (List.nil_append _).symm
  current := by simpa [steps] using h.current
  loaded := by simpa [loads] using h.loaded
  ordered := by simpa [loads] using h.ordered

theorem Told.tell {s found : Shared} {outcome : PassOutcome}
    (h : Told ms ⟨s, some ⟨found, outcome, []⟩⟩) (e : SessionEvent) :
    Told (ms ++ [Move.tell e]) ⟨s, none⟩ where
  sound := by simpa [outcomes] using h.sound
  stands := by
    cases h.stands with
    | during hms hsteps =>
        rw [List.append_nil] at hsteps
        have hafter := Shared.after_concat _ _ ▸ congrArg Shared.after hms
        rw [Shared.recompile, hsteps] at hafter
        rw [← hafter, show outcomes ms = outcomes (ms ++ [Move.tell e]) by simp [outcomes]]
        exact .between
  current := by simpa [steps] using h.current
  loaded := by simpa [loads] using h.loaded
  ordered := by simpa [loads] using h.ordered

theorem Told.later_apply {s found : Shared} {outcome : PassOutcome} {a : Shared.Step}
    {rest : List Shared.Step} (h : Told ms ⟨s, some ⟨found, outcome, a :: rest⟩⟩) :
    Later s.current (s.apply a).current := by
  cases h.stands with
  | during hms hsteps =>
      exact (h.reflects hms).later_apply (h.sound outcome (by simp [hms])) hsteps

theorem Told.step {s found : Shared} {outcome : PassOutcome} {a : Shared.Step}
    {rest : List Shared.Step} (h : Told ms ⟨s, some ⟨found, outcome, a :: rest⟩⟩) :
    Told (ms ++ [Move.step a]) ⟨s.apply a, some ⟨found, outcome, rest⟩⟩ where
  sound := by simpa [outcomes] using h.sound
  stands := by
    cases h.stands with
    | @during os _ done _ hms hsteps =>
        have hdone : (done ++ [a]).foldl Shared.apply (.after os) = _ := List.foldl_concat ..
        rw [← hdone]
        exact .during (by simpa [outcomes] using hms) (by simpa using hsteps)
  current := by
    rw [Move.steps_append]
    exact current_apply h.current a
  loaded := fun seen hseen => (h.loaded seen (by simpa [loads] using hseen)).trans h.later_apply
  ordered := by simpa [loads] using h.ordered

theorem Told.move (h : l.Told ms) (hstep : Step o l m l') : l'.Told (ms ++ [m]) := by
  cases hstep with
  | call hends => exact h.call hends
  | step => exact h.step
  | tell => exact h.tell _
  | read use => exact h.concat rfl rfl (by simp [loads])
  | ask => exact h.concat rfl rfl (by simp [loads])
  | askErrors => exact h.concat rfl rfl (by simp [loads])

theorem Told.later (h : l.Told ms) (hstep : Step o l m l') :
    Later l.shared.current l'.shared.current := by
  cases hstep with
  | step => exact h.later_apply
  | _ => exact .refl _

theorem Told.runs (h : l.Told ms) (hruns : Runs o l ms' l') : l'.Told (ms ++ ms') := by
  induction hruns generalizing ms with
  | nil => simpa using h
  | cons first rest ih => simpa using ih (h.move first)

theorem Runs.told (h : Runs o .start ms l) : l.Told ms := told_start.runs h

/-! ## What listeners are told -/

/-- From a call up to the next event only steps of that recompilation are taken. -/
theorem Runs.steps_of_underway {found : Shared} {outcome : PassOutcome} {todo : List Shared.Step}
    (h : Runs o l ms l') (hl : l.underway = some ⟨found, outcome, todo⟩)
    (hms : ∀ m ∈ ms, m.isTell = false) :
    ∃ rest, l'.underway = some ⟨found, outcome, rest⟩ ∧ todo = steps ms ++ rest := by
  induction h generalizing todo with
  | nil => exact ⟨todo, hl, rfl⟩
  | cons first rest ih =>
      have hrest := fun m hm => hms m (List.mem_cons_of_mem _ hm)
      cases first with
      | call => cases hl
      | step =>
          cases hl
          obtain ⟨left, hleft, htodo⟩ := ih rfl hrest
          exact ⟨left, hleft, by simp [steps, htodo]⟩
      | tell => exact absurd (hms _ List.mem_cons_self) (by simp [isTell])
      | read use => exact ih hl hrest
      | ask => exact ih hl hrest
      | askErrors => exact ih hl hrest

end Live

structure SessionEvent.Tells (e : SessionEvent) (published : List Snapshot) : Prop where
  swapped : e.swapped = true → ∃ snapshot, e.snapshot = some snapshot ∧ published = [snapshot]
  kept : e.swapped = false → published = []

theorem Shared.event_tells (s : Shared) (o : PassOutcome) :
    (s.event o).Tells (published (s.steps o)) := by
  rw [published_steps]
  cases o with
  | success b => exact ⟨fun _ => ⟨_, rfl, rfl⟩, by simp [event]⟩
  | failure errors builtAt =>
      rw [event, recompile_failure]
      cases h : isUnbuilt s.state with
      | true => exact ⟨fun _ => ⟨_, rfl, rfl⟩, by simp⟩
      | false => exact ⟨by simp, fun _ => rfl⟩

namespace Live

variable {o : SessionOptions} {ms : List Move} {l : Live}

/-- How a session and what was seen of it agree with what happened. -/
structure Faithful (ms : List Move) (l : Live) : Prop where
  /-- Between calls, what is shared tells how the passes so far ended. -/
  settled : l.underway = none → l.shared.Reflects (outcomes ms)
  /-- What is loaded is what was published last. -/
  current : l.shared.current = (Shared.published (steps ms)).getLast?
  /-- Each event tells whether its recompilation published a snapshot, and which. -/
  events : ∀ before outcome during e later,
    ms = before ++ .call outcome :: (during ++ .tell e :: later) →
      (∀ m ∈ during, m.isTell = false) → e.Tells (Shared.published (steps during))
  /-- Generations never decrease, no errors are shown after templates, and there is always
  something to load once there was. -/
  loads : (loads ms).Pairwise Later

/-- However recompilations and readers interleave, a session is faithful to what happened. -/
theorem faithful_of_runs (h : Runs o .start ms l) : Faithful ms l where
  settled := by
    intro hidle
    cases h.told.stands with
    | between => exact h.told.reflects_all
    | during hms hsteps => cases hidle
  current := h.told.current
  events := by
    rintro before outcome during e later rfl hduring
    obtain ⟨found, -, hafter⟩ := h.split
    cases hafter with
    | cons called hcalled =>
        obtain ⟨last, hduring', hlast⟩ := hcalled.split
        cases called with
        | call hends =>
            obtain ⟨rest, hunderway, htodo⟩ := hduring'.steps_of_underway rfl hduring
            cases hlast with
            | cons told _ =>
                cases told with
                | tell =>
                    cases hunderway
                    rw [List.append_nil] at htodo
                    rw [← htodo]
                    exact Shared.event_tells _ _
  loads := h.told.ordered

def bare : SessionOptions := ⟨"templates", ⟨[], []⟩, "views", none, none⟩

theorem bare_succeeds : ∃ b, bare.Ends (.success b) := by
  have hpass : (bare.pass default "T" [] ⟨"/work", .dir [("templates", .dir [])]⟩
      false).2.2.isSuccess = true := by cbv
  obtain ⟨b, hb⟩ := PassOutcome.isSuccess_iff.1 hpass
  exact ⟨b, hb ▸ .pass _ _ _ _ _⟩

def tooSlow : Diagnostic := .error .generation "templates" 0 0 "recompilation timed out after 30s"

/-- A pass is stopped, the next one is good, and readers look in between. -/
def recovery (b : Build) : List Move :=
  let errors := Snapshot.ofErrors [tooSlow] "T"
  let first := PassOutcome.failure [tooSlow] "T"
  [.call first, .read .load none, .step (.enter .recompiling), .step (.publish errors),
    .read (.lookup "page") (some errors), .step (.enter .failed), .step (.record [tooSlow]),
    .tell (Shared.initial.event first), .askErrors [tooSlow],
    .call (.success b), .step (.enter .recompiling), .step .succeed,
    .read .load (some errors), .step (.publish (.ofBuild b 1)), .read .load (some (.ofBuild b 1)),
    .tell ((Shared.after [first]).event (.success b))]

theorem faithful_of_runs_recovery : ∃ b l, Runs bare .start (recovery b) l ∧
    Faithful (recovery b) l := by
  obtain ⟨b, hb⟩ := bare_succeeds
  have hruns : Runs bare .start (recovery b) ⟨⟨.active, [], 1, some (.ofBuild b 1)⟩, none⟩ :=
    .cons (.call (.stopped tooSlow "T" rfl)) <| .cons (.read .load) <| .cons .step <|
    .cons .step <| .cons (.read (.lookup "page")) <| .cons .step <| .cons .step <|
    .cons .tell <| .cons .askErrors <|
    .cons (.call hb) <| .cons .step <| .cons .step <| .cons (.read .load) <| .cons .step <|
    .cons (.read .load) <| .cons .tell .nil
  exact ⟨b, _, hruns, faithful_of_runs hruns⟩

end Live

end TagLoom

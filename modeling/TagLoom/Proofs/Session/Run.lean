import TagLoom.Proofs.Compilation.Outcome
import TagLoom.DevSession

/-!
# Runs of a session

Callers recompile one after the other while readers look at what is shared at any moment.  A run is
the list of what happened.  Between calls, what is shared is told by how the passes so far ended;
at any moment, what a reader loads is no older than what was loaded before.

## How passes of a session end

A pass ends with tags to render or with errors that say why there are none, never with a registry
that shows errors and never with an empty list.
-/

namespace TagLoom

namespace PassOutcome

def isSuccess : PassOutcome → Bool
  | .success _ => true
  | .failure _ _ => false

def errors : PassOutcome → List Diagnostic
  | .success _ => []
  | .failure errors _ => errors

/-- What a pass tells: a success holds a registry of tags, a failure at least one error. -/
def IsSound : PassOutcome → Prop
  | .success b => b.registry.isFallback = false
  | .failure errors _ => Diagnostic.hasErrors errors = true

theorem isSuccess_iff {o : PassOutcome} : o.isSuccess = true ↔ ∃ b, o = .success b := by
  cases o <;> simp [isSuccess]

theorem IsSound.errors_eq_nil_iff {o : PassOutcome} (h : o.IsSound) :
    o.errors = [] ↔ o.isSuccess = true := by
  cases o with
  | success b => simp [errors, isSuccess]
  | failure errors builtAt =>
      have hne : errors ≠ [] := by
        rintro rfl
        simp [IsSound, Diagnostic.hasErrors] at h
      simp [PassOutcome.errors, isSuccess, hne]

end PassOutcome

theorem Compilation.hasErrors_of_analyze {options : CompileOptions} {parsed : List ParsedFile}
    {ds : List Diagnostic} (h : analyze options parsed = .error ds) :
    Diagnostic.hasErrors ds = true := by
  unfold analyze at h
  dsimp only at h
  split at h
  · rename_i herrors
    cases h
    rwa [Diagnostic.hasErrors_perm (Diagnostic.isStableSort_sort _).perm]
  · split at h
    · cases h
    · split at h
      · cases h
      · rename_i hcode
        cases h
        obtain ⟨hne, hproblems⟩ := generate_error hcode
        obtain ⟨d, hd⟩ := List.exists_mem_of_ne_nil _ hne
        rw [Diagnostic.hasErrors_perm (Diagnostic.isStableSort_sort _).perm]
        exact List.any_eq_true.2 ⟨d, List.mem_append_right _ hd, hproblems d hd⟩

theorem Compilation.hasErrors_of_run {options : CompileOptions} {cache : ParseCache}
    {files : List SourceFile} {cancelled : Bool} {ds : List Diagnostic}
    (h : (run options cache files cancelled).2 = .error ds) : Diagnostic.hasErrors ds = true := by
  unfold run at h
  split at h
  · cases h
    rfl
  · exact hasErrors_of_analyze h

namespace SessionOptions

variable {o : SessionOptions}

/-- How a pass of a session can end: on its own over some disk, or with one error when it is
stopped from outside, as it is when its time is up. -/
inductive Ends (o : SessionOptions) : PassOutcome → Prop where
  | pass (tool : ProgramRun) (now : Bytes) (cache : ParseCache) (d : Disk) (cancelled : Bool) :
      Ends o (o.pass tool now cache d cancelled).2.2
  | stopped (e : Diagnostic) (now : Bytes) (h : e.isError = true) : Ends o (.failure [e] now)

theorem finish_isSound (tool : ProgramRun) (now : Bytes) (d : Disk) (c : Compiled) :
    (o.finish tool now d c).2.IsSound := by
  unfold finish
  dsimp only
  split
  · rfl
  · rfl

theorem pass_isSound (tool : ProgramRun) (now : Bytes) (cache : ParseCache) (d : Disk)
    (cancelled : Bool) : (o.pass tool now cache d cancelled).2.2.IsSound := by
  unfold pass
  split
  · rfl
  · split
    · rename_i hrun
      exact Compilation.hasErrors_of_run (congrArg Prod.snd hrun)
    · exact finish_isSound tool now d _

theorem Ends.isSound {outcome : PassOutcome} (h : o.Ends outcome) : outcome.IsSound := by
  cases h with
  | pass tool now cache d cancelled => exact pass_isSound tool now cache d cancelled
  | stopped e now he => simpa [PassOutcome.IsSound, Diagnostic.hasErrors] using he

end SessionOptions

/-! ## Moves -/

/-- A recompilation under way: what it found, how its pass ends, and the steps still to take. -/
structure Underway where
  found : Shared
  outcome : PassOutcome
  rest : List Shared.Step

/-- A session at a moment.  At most one recompilation is under way; other callers wait. -/
structure Live where
  shared : Shared
  underway : Option Underway

/-- A session before anything happened. -/
def Live.start : Live := ⟨.initial, none⟩

/-- What a reader does with the snapshot it loads.  It loads once, so the answer depends on that
snapshot alone. -/
inductive Reading where
  | load
  | lookup (name : Bytes)
  | render (name : Bytes) (model : Env NodeBlock) (page : Page)

/-- What can happen in a session. -/
inductive Move where
  /-- A caller gets its turn; its pass is going to end in a certain way. -/
  | call (outcome : PassOutcome)
  /-- The recompilation under way takes its next step. -/
  | step (s : Shared.Step)
  /-- The recompilation is done: listeners are told, and the next caller may get its turn. -/
  | tell (e : SessionEvent)
  /-- A reader loads the snapshot. -/
  | read (use : Reading) (seen : Option Snapshot)
  /-- Somebody asks for the state. -/
  | ask (seen : SessionState)
  /-- Somebody asks for the errors of the last pass. -/
  | askErrors (seen : List Diagnostic)

/-- How a move takes a session from one moment to the next. -/
inductive Live.Step (o : SessionOptions) : Live → Move → Live → Prop where
  | call {s : Shared} {outcome : PassOutcome} (h : o.Ends outcome) :
      Step o ⟨s, none⟩ (.call outcome) ⟨s, some ⟨s, outcome, s.steps outcome⟩⟩
  | step {s found : Shared} {outcome : PassOutcome} {a : Shared.Step} {rest : List Shared.Step} :
      Step o ⟨s, some ⟨found, outcome, a :: rest⟩⟩ (.step a)
        ⟨s.apply a, some ⟨found, outcome, rest⟩⟩
  | tell {s found : Shared} {outcome : PassOutcome} :
      Step o ⟨s, some ⟨found, outcome, []⟩⟩ (.tell (found.event outcome)) ⟨s, none⟩
  | read {l : Live} (use : Reading) : Step o l (.read use l.shared.current) l
  | ask {l : Live} : Step o l (.ask l.shared.state) l
  | askErrors {l : Live} : Step o l (.askErrors l.shared.lastErrors) l

inductive Live.Runs (o : SessionOptions) : Live → List Move → Live → Prop where
  | nil {l : Live} : Runs o l [] l
  | cons {l l' l'' : Live} {m : Move} {ms : List Move} (first : Live.Step o l m l')
      (rest : Runs o l' ms l'') : Runs o l (m :: ms) l''

namespace Move

/-- How the passes ended that were called for, in order. -/
def outcomes (ms : List Move) : List PassOutcome :=
  ms.filterMap fun | .call o => some o | _ => none

/-- The steps recompilations took, in order. -/
def steps (ms : List Move) : List Shared.Step :=
  ms.filterMap fun | .step a => some a | _ => none

def loads (ms : List Move) : List (Option Snapshot) :=
  ms.filterMap fun | .read _ seen => some seen | _ => none

/-- Whether listeners are told about a recompilation. -/
def isTell : Move → Bool
  | .tell _ => true
  | _ => false

@[simp] theorem outcomes_append (ms ms' : List Move) :
    outcomes (ms ++ ms') = outcomes ms ++ outcomes ms' := List.filterMap_append

@[simp] theorem loads_append (ms ms' : List Move) : loads (ms ++ ms') = loads ms ++ loads ms' :=
  List.filterMap_append

@[simp] theorem steps_append (ms ms' : List Move) : steps (ms ++ ms') = steps ms ++ steps ms' :=
  List.filterMap_append

end Move

def Shared.published (steps : List Shared.Step) : List Snapshot :=
  steps.filterMap fun | .publish snapshot => some snapshot | _ => none

theorem Shared.published_append (steps steps' : List Shared.Step) :
    published (steps ++ steps') = published steps ++ published steps' := List.filterMap_append

namespace Live

variable {o : SessionOptions}

theorem Runs.split {ms ms' : List Move} {l l' : Live} (h : Runs o l (ms ++ ms') l') :
    ∃ mid, Runs o l ms mid ∧ Runs o mid ms' l' := by
  induction ms generalizing l with
  | nil => exact ⟨l, .nil, h⟩
  | cons m ms ih =>
      cases h with
      | cons first rest =>
          obtain ⟨mid, hms, hms'⟩ := ih rest
          exact ⟨mid, .cons first hms, hms'⟩

end Live

/-! ## Between calls -/

def Shared.after (os : List PassOutcome) : Shared := os.foldl Shared.recompile .initial

theorem Shared.after_concat (os : List PassOutcome) (o : PassOutcome) :
    after (os ++ [o]) = (after os).recompile o := List.foldl_concat ..

/-- The good passes among some, in order. -/
def PassOutcome.builds (os : List PassOutcome) : List Build :=
  os.filterMap fun | .success b => some b | .failure _ _ => none

theorem PassOutcome.builds_concat (os : List PassOutcome) (o : PassOutcome) :
    builds (os ++ [o]) = builds os ++ (match o with | .success b => [b] | .failure _ _ => []) := by
  rw [builds, List.filterMap_append]
  cases o <;> rfl

theorem PassOutcome.builds_eq_nil_iff {os : List PassOutcome} :
    builds os = [] ↔ ∀ b, PassOutcome.success b ∉ os := by
  rw [builds, List.filterMap_eq_nil_iff]
  constructor
  · intro h b hb
    exact nomatch h _ hb
  · intro h o ho
    cases o with
    | success b => exact absurd ho (h b)
    | failure errors builtAt => rfl

/-- What is shared tells how the passes so far ended. -/
structure Shared.Reflects (s : Shared) (os : List PassOutcome) : Prop where
  idle : s.state = .idle ↔ os = []
  active : s.state = .active ↔ ∃ b, PassOutcome.success b ∈ os
  failed : s.state = .failed ↔ os ≠ [] ∧ ∀ b, PassOutcome.success b ∉ os
  /-- The generation counts the good passes. -/
  generation : s.generation = (PassOutcome.builds os).length
  /-- There is nothing to load exactly as long as nothing was compiled. -/
  nothing : s.current = none ↔ s.state = .idle
  /-- What is loaded shows errors exactly when no pass was good. -/
  diagnostic : ∀ snapshot, s.current = some snapshot →
    (snapshot.isDiagnostic = true ↔ s.state = .failed)
  /-- The errors shown are those of the last pass. -/
  showsErrors : s.state = .failed → ∃ errors builtAt,
    os.getLast? = some (.failure errors builtAt) ∧ s.current = some (.ofErrors errors builtAt) ∧
      (Snapshot.ofErrors errors builtAt).generation = 0
  /-- Otherwise the last good pass is live, with the generation it was given. -/
  showsBuild : s.state = .active → ∃ b,
    (PassOutcome.builds os).getLast? = some b ∧ s.current = some (.ofBuild b s.generation)
  lastErrors : s.lastErrors = (os.getLast?.map (·.errors)).getD []
  lastErrors_eq_nil : s.lastErrors = [] ↔ ∀ o, os.getLast? = some o → o.isSuccess = true

namespace Shared

theorem recompile_success (s : Shared) (b : Build) :
    s.recompile (.success b) =
      ⟨.active, [], s.generation + 1, some (.ofBuild b (s.generation + 1))⟩ := rfl

theorem recompile_failure (s : Shared) (errors : List Diagnostic) (builtAt : Bytes) :
    s.recompile (.failure errors builtAt) =
      if isUnbuilt s.state then ⟨.failed, errors, s.generation, some (.ofErrors errors builtAt)⟩
      else ⟨.active, errors, s.generation, s.current⟩ := by
  simp only [recompile, steps]
  split <;> rfl

theorem isDiagnostic_ofBuild {b : Build} (h : (PassOutcome.success b).IsSound) (n : Nat) :
    (Snapshot.ofBuild b n).isDiagnostic = false := h

theorem reflects_initial : initial.Reflects [] where
  idle := by simp [initial]
  active := by simp [initial]
  failed := by simp [initial]
  generation := rfl
  nothing := by simp [initial]
  diagnostic := by simp [initial]
  showsErrors := by simp [initial]
  showsBuild := by simp [initial]
  lastErrors := rfl
  lastErrors_eq_nil := by simp [initial]

variable {s : Shared} {os : List PassOutcome} {o : PassOutcome}

theorem Reflects.state_ne (h : s.Reflects os) : s.state ≠ .recompiling := by
  intro hstate
  have hidle : os ≠ [] := fun hos => by simp [h.idle.2 hos] at hstate
  by_cases hbuilt : ∃ b, PassOutcome.success b ∈ os
  · simp [h.active.2 hbuilt] at hstate
  · have hfailed := h.failed.2 ⟨hidle, not_exists.1 hbuilt⟩
    simp [hfailed] at hstate

theorem Reflects.isUnbuilt_iff (h : s.Reflects os) : isUnbuilt s.state = true ↔ s.state ≠ .active := by
  have hne := h.state_ne
  cases hs : s.state <;> simp_all [isUnbuilt]

theorem Reflects.not_mem_of_ne (h : s.Reflects os) (hs : s.state ≠ .active) (b : Build) :
    PassOutcome.success b ∉ os := fun hb => hs (h.active.2 ⟨b, hb⟩)

private theorem Reflects.lastErrors_concat (os : List PassOutcome) (s' : Shared) (ho : o.IsSound)
    (h : s'.lastErrors = o.errors) :
    s'.lastErrors = (((os ++ [o]).getLast?.map (·.errors)).getD []) ∧
      (s'.lastErrors = [] ↔ ∀ o', (os ++ [o]).getLast? = some o' → o'.isSuccess = true) := by
  rw [List.getLast?_concat, h]
  exact ⟨rfl, by simpa using ho.errors_eq_nil_iff⟩

theorem Reflects.success (h : s.Reflects os) {b : Build} (ho : (PassOutcome.success b).IsSound) :
    (s.recompile (.success b)).Reflects (os ++ [PassOutcome.success b]) := by
  rw [recompile_success]
  obtain ⟨hlast, hnil⟩ := lastErrors_concat os
    ⟨.active, [], s.generation + 1, some (.ofBuild b (s.generation + 1))⟩ ho rfl
  exact {
    idle := by simp
    active := ⟨fun _ => ⟨b, by simp⟩, fun _ => rfl⟩
    failed := ⟨by simp, fun hf => absurd (by simp) (hf.2 b)⟩
    generation := by simp [PassOutcome.builds_concat, h.generation]
    nothing := by simp
    diagnostic := by
      intro snapshot hsnapshot
      cases hsnapshot
      simp [isDiagnostic_ofBuild ho]
    showsErrors := by simp
    showsBuild := fun _ => ⟨b, by simp [PassOutcome.builds_concat], rfl⟩
    lastErrors := hlast
    lastErrors_eq_nil := hnil }

theorem Reflects.failure_unbuilt (h : s.Reflects os) (hs : s.state ≠ .active)
    {errors : List Diagnostic} {builtAt : Bytes} (ho : (PassOutcome.failure errors builtAt).IsSound) :
    (s.recompile (.failure errors builtAt)).Reflects
      (os ++ [PassOutcome.failure errors builtAt]) := by
  have hnone := h.not_mem_of_ne hs
  rw [recompile_failure, if_pos (h.isUnbuilt_iff.2 hs)]
  obtain ⟨hlast, hnil⟩ := lastErrors_concat os
    ⟨.failed, errors, s.generation, some (.ofErrors errors builtAt)⟩ ho rfl
  exact {
    idle := by simp
    active := by simpa using hnone
    failed := by simpa using hnone
    generation := by simp [PassOutcome.builds_concat, h.generation]
    nothing := by simp
    diagnostic := by
      intro snapshot hsnapshot
      cases hsnapshot
      simp [Snapshot.isDiagnostic, Snapshot.ofErrors, TagRegistry.isFallback, TagRegistry.ofFallback]
    showsErrors := fun _ => ⟨errors, builtAt, by simp, rfl, rfl⟩
    showsBuild := by simp
    lastErrors := hlast
    lastErrors_eq_nil := hnil }

theorem Reflects.failure_built (h : s.Reflects os) (hs : s.state = .active)
    {errors : List Diagnostic} {builtAt : Bytes} (ho : (PassOutcome.failure errors builtAt).IsSound) :
    (s.recompile (.failure errors builtAt)).Reflects
      (os ++ [PassOutcome.failure errors builtAt]) := by
  obtain ⟨b, hb⟩ := h.active.1 hs
  obtain ⟨b', hlive, hcurrent⟩ := h.showsBuild hs
  have hgood : (Snapshot.ofBuild b' s.generation).isDiagnostic = false := by
    have hdiagnostic := h.diagnostic _ hcurrent
    simpa [hs] using hdiagnostic
  rw [recompile_failure, if_neg (by rw [hs]; decide)]
  obtain ⟨hlast, hnil⟩ := lastErrors_concat os
    ⟨.active, errors, s.generation, s.current⟩ ho rfl
  exact {
    idle := by simp
    active := by simpa using ⟨b, hb⟩
    failed := by simpa using ⟨b, hb⟩
    generation := by simp [PassOutcome.builds_concat, h.generation]
    nothing := by simp [hcurrent]
    diagnostic := by
      intro snapshot hsnapshot
      rw [hcurrent] at hsnapshot
      cases hsnapshot
      simp [hgood]
    showsErrors := by simp
    showsBuild := fun _ => ⟨b', by simpa [PassOutcome.builds_concat] using hlive, hcurrent⟩
    lastErrors := hlast
    lastErrors_eq_nil := hnil }

theorem Reflects.recompile (h : s.Reflects os) (ho : o.IsSound) :
    (s.recompile o).Reflects (os ++ [o]) := by
  cases o with
  | success b => exact h.success ho
  | failure errors builtAt =>
      by_cases hs : s.state = .active
      · exact h.failure_built hs ho
      · exact h.failure_unbuilt hs ho

theorem reflects_after (hos : ∀ o ∈ os, o.IsSound) : (after os).Reflects os := by
  induction os using List.reverseRecOn with
  | nil => exact reflects_initial
  | append_singleton os o ih =>
      rw [after_concat]
      exact (ih fun o' ho' => hos o' (by simp [ho'])).recompile (hos o (by simp))

end Shared

end TagLoom

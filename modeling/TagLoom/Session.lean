import TagLoom.Manifest
import TagLoom.Overlay
import TagLoom.Rendering

/-!
# Sessions

While templates are edited, passes run over them again and again, and readers render from what the
last good pass published.

A recompilation is a list of steps.  Each step is atomic: readers see what is shared between any two
of them.  Recompilations themselves never overlap.
-/

namespace TagLoom

inductive SessionState where
  /-- Nothing was compiled yet. -/
  | idle
  | recompiling
  /-- A good pass is live. -/
  | active
  /-- No pass was good so far. -/
  | failed
deriving DecidableEq, Inhabited

def SessionState.label : SessionState → Bytes
  | .idle => "idle"
  | .recompiling => "recompiling"
  | .active => "active"
  | .failed => "failed"

structure Build where
  registry : TagRegistry NodeBlock
  manifest : Manifest
  warnings : List Diagnostic
  builtAt : Bytes

structure Snapshot where
  registry : TagRegistry NodeBlock
  /-- The number of good passes up to this one; 0 when it shows errors. -/
  generation : Nat
  /-- The tags; there is none when the snapshot shows errors. -/
  manifest : Option Manifest
  /-- The errors shown, or the warnings of a good pass. -/
  diagnostics : List Diagnostic
  builtAt : Bytes

namespace Snapshot

def isDiagnostic (s : Snapshot) : Bool := s.registry.isFallback

def ofBuild (b : Build) (generation : Nat) : Snapshot :=
  ⟨b.registry, generation, some b.manifest, b.warnings, b.builtAt⟩

def ofErrors (errors : List Diagnostic) (builtAt : Bytes) : Snapshot :=
  ⟨.ofFallback fun _ p => some (p.raw (Overlay.page errors), none), 0, none, errors, builtAt⟩

end Snapshot

inductive PassOutcome where
  | success (build : Build)
  | failure (errors : List Diagnostic) (builtAt : Bytes)

structure Shared where
  state : SessionState
  /-- The errors of the last pass, if it failed. -/
  lastErrors : List Diagnostic
  /-- The number of good passes. -/
  generation : Nat
  /-- What readers render from; nothing before the first pass. -/
  current : Option Snapshot

structure SessionEvent where
  state : SessionState
  /-- Whether another snapshot was published. -/
  swapped : Bool
  snapshot : Option Snapshot
  diagnostics : List Diagnostic

namespace Shared

def initial : Shared := ⟨.idle, [], 0, none⟩

inductive Step where
  | enter (state : SessionState)
  /-- Counts a good pass. -/
  | succeed
  | publish (snapshot : Snapshot)
  | record (errors : List Diagnostic)
  /-- Goes back to what is live, with the errors of the pass that did not replace it. -/
  | keep (errors : List Diagnostic)

def apply (s : Shared) : Step → Shared
  | .enter state => { s with state }
  | .succeed => { s with state := .active, lastErrors := [], generation := s.generation + 1 }
  | .publish snapshot => { s with current := some snapshot }
  | .record errors => { s with lastErrors := errors }
  | .keep errors => { s with state := .active, lastErrors := errors }

def isUnbuilt (previous : SessionState) : Bool := previous == .idle || previous == .failed

/-- The steps of a recompilation.  As long as no pass was good, errors are published, so that every
page shows them; afterwards the last good snapshot stays. -/
def steps (s : Shared) : PassOutcome → List Step
  | .success b => [.enter .recompiling, .succeed, .publish (.ofBuild b (s.generation + 1))]
  | .failure errors builtAt =>
      if isUnbuilt s.state then
        [.enter .recompiling, .publish (.ofErrors errors builtAt), .enter .failed, .record errors]
      else [.enter .recompiling, .keep errors]

def recompile (s : Shared) (o : PassOutcome) : Shared := (s.steps o).foldl apply s

def event (s : Shared) (o : PassOutcome) : SessionEvent :=
  let after := s.recompile o
  match o with
  | .success b => ⟨.active, true, after.current, b.warnings⟩
  | .failure errors _ => ⟨after.state, isUnbuilt s.state, after.current, errors⟩

/-! ## Readers -/

def lookup (s : Shared) (name : Bytes) : Option (RegisteredTag NodeBlock) :=
  s.current.bind (·.registry.lookup name)

def render (s : Shared) (name : Bytes) : TagBody NodeBlock := fun model p =>
  match s.current with
  | none => some (p, some (.unknownTag name))
  | some snapshot => snapshot.registry.render name model p

end Shared

/-!
## Measurements

What is counted while a session runs: recompilations by result, what the last one reported, what is
live, and requests by method, route and status.
-/

structure RequestLabel where
  method : Bytes
  route : Bytes
  status : Nat
deriving DecidableEq, Inhabited

structure Metrics where
  successes : Nat
  failures : Nat
  errors : Nat
  generation : Nat
  tags : Nat
  requests : List (RequestLabel × Nat)
deriving DecidableEq, Inhabited

/-- One number; a distribution is told by how many values went into it. -/
structure Sample where
  name : Bytes
  labels : List Bytes
  isCount : Bool
  amount : Nat
deriving DecidableEq, Inhabited

namespace Metrics

def zero : Metrics := ⟨0, 0, 0, 0, 0, []⟩

def observe (m : Metrics) (success : Bool) (errors : Nat) : Metrics :=
  { m with
    successes := m.successes + (if success then 1 else 0)
    failures := m.failures + (if success then 0 else 1)
    errors }

def published (m : Metrics) (s : Snapshot) : Metrics :=
  { m with generation := s.generation, tags := s.registry.size }

def recompiled (m : Metrics) (o : PassOutcome) (e : SessionEvent) : Metrics :=
  let m := match o with
    | .success b => m.observe true (Diagnostic.errors b.warnings).length
    | .failure errors _ => m.observe false (Diagnostic.errors errors).length
  match e.swapped, e.snapshot with
  | true, some s => m.published s
  | _, _ => m

def request (m : Metrics) (label : RequestLabel) : Metrics :=
  if m.requests.any (·.1 == label) then
    { m with requests := m.requests.map fun (l, n) => (l, if l == label then n + 1 else n) }
  else { m with requests := m.requests ++ [(label, 1)] }

def labelTexts (l : RequestLabel) : List Bytes :=
  ["method=" ++ l.method, "path=" ++ l.route, "status=" ++ Bytes.ofNat l.status]

def counted (name : Bytes) (labels : List Bytes) (n : Nat) : List Sample :=
  if n == 0 then [] else [⟨name, labels, false, n⟩]

def samples (m : Metrics) : List Sample :=
  let byLabels := m.requests.mergeSort fun a b =>
    Bytes.le (Bytes.join "," (labelTexts a.1)) (Bytes.join "," (labelTexts b.1))
  [⟨"taglet_compile_errors", [], false, m.errors⟩] ++
  byLabels.map (fun (l, n) => ⟨"taglet_http_request_duration_seconds", labelTexts l, true, n⟩) ++
  byLabels.map (fun (l, n) => ⟨"taglet_http_requests_total", labelTexts l, false, n⟩) ++
  [⟨"taglet_recompilation_duration_seconds", [], true, m.successes + m.failures⟩] ++
  counted "taglet_recompilations_total" ["result=failure"] m.failures ++
  counted "taglet_recompilations_total" ["result=success"] m.successes ++
  [⟨"taglet_registry_generation", [], false, m.generation⟩,
    ⟨"taglet_registry_tags", [], false, m.tags⟩]

end Metrics

end TagLoom

import TagLoom.Watching

/-!
# Debouncing

Bursts of changes become one batch.  Changes wait in a queue, are collected one by one, and are sent
on as a batch once a timer runs out; every change collected starts the timer anew.

What can happen is a set of small steps, since whoever adds changes, collects them, runs the timer
and takes batches does so independently of the others.  A timer that has run out cannot be stopped
any more: its flush is due whatever happens before it runs.
-/

namespace TagLoom

structure Debouncer where
  /-- Changes not yet collected. -/
  queue : List Change
  /-- Changes collected since the last flush, in order. -/
  pending : List Change
  /-- Batches not yet taken. -/
  batches : List (List Change)
  /-- Whether a timer is running. -/
  armed : Bool
  /-- The flushes of timers that have run out. -/
  due : Nat
deriving DecidableEq, Inhabited

namespace Debouncer

def idle : Debouncer := ⟨[], [], [], false, 0⟩

def queueLimit : Nat := 100

def batchLimit : Nat := 10

def add (d : Debouncer) (c : Change) : Debouncer :=
  if d.queue.length < queueLimit then { d with queue := d.queue ++ [c] } else d

def collect (d : Debouncer) : Debouncer :=
  match d.queue with
  | [] => d
  | c :: rest => { d with queue := rest, pending := d.pending ++ [c], armed := true }

def expire (d : Debouncer) : Debouncer :=
  if d.armed then { d with armed := false, due := d.due + 1 } else d

def lastPerPath : List Change → List Change
  | [] => []
  | c :: rest => if rest.any (·.path == c.path) then lastPerPath rest else c :: lastPerPath rest

/-- What a batch holds: the last change of each path, in the order of the paths. -/
def batch (pending : List Change) : List Change :=
  (lastPerPath pending).mergeSort fun a b => Bytes.le a.path b.path

/-- Sends on what is pending.  With too many batches waiting the batch is dropped, for one of those
tells the receiver the same. -/
def flush (d : Debouncer) : Debouncer :=
  if d.due == 0 then d
  else
    let d := { d with due := d.due - 1 }
    if d.pending.isEmpty then d
    else if d.batches.length < batchLimit
      then { d with batches := d.batches ++ [batch d.pending], pending := [] }
      else { d with pending := [] }

def receive (d : Debouncer) : Debouncer × Option (List Change) :=
  match d.batches with
  | [] => (d, none)
  | b :: rest => ({ d with batches := rest }, some b)

def collectAll (d : Debouncer) : Debouncer := d.queue.foldl (fun d _ => d.collect) d

/-- The batch of a burst: all changes are queued before the first is collected, and the timer runs
out after the last. -/
def burst (changes : List Change) : Option (List Change) :=
  ((changes.foldl add idle).collectAll.expire.flush.receive).2

end Debouncer

end TagLoom

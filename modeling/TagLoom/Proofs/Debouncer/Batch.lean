import TagLoom.Debouncer
import TagLoom.Proofs.Bytes.Text

/-!
# Batches of changes

Changes and whole batches are dropped when there is no room for them.  Still, until a batch is taken
after a change was added, something waits that becomes one: `Owed` says that of a state, and
`rebuild_owed` of every state that adding, collecting, timers, flushes and taking can lead to.

A flush sends on the changes that were collected since the flush before it: the last change of each
path, in the order of the paths.  These two conditions leave only one batch, so in which order the
paths are gone through does not matter, and nothing of one batch is left for the next.
-/

namespace TagLoom.Debouncer

inductive Act where
  | add (c : Change)
  | collect
  | expire
  | flush
  | receive (batch : List Change)
deriving DecidableEq

/-- What can happen in a state, and where it leads.  A timer that ran out is no longer armed, but its
flush stays due when the next change arms another one. -/
inductive Step : Debouncer → Act → Debouncer → Prop where
  | add (d : Debouncer) (c : Change) : Step d (.add c) (d.add c)
  | collect {d : Debouncer} (h : d.queue ≠ []) : Step d .collect d.collect
  | expire {d : Debouncer} (h : d.armed = true) : Step d .expire d.expire
  | flush {d : Debouncer} (h : 0 < d.due) : Step d .flush d.flush
  | receive {d d' : Debouncer} {batch : List Change} (h : d.receive = (d', some batch)) :
      Step d (.receive batch) d'

/-- What happens one after the other, by whomever. -/
inductive Runs : Debouncer → List Act → Debouncer → Prop where
  | nil {d : Debouncer} : Runs d [] d
  | cons {d d' e : Debouncer} {a : Act} {acts : List Act} (hstep : Step d a d')
      (hrest : Runs d' acts e) : Runs d (a :: acts) e

/-- Something waits that becomes a batch, or is one. -/
def Owed (d : Debouncer) : Prop := d.queue ≠ [] ∨ d.pending ≠ [] ∨ d.batches ≠ []

/-- Changes that were collected wait for a timer or for a flush that is due. -/
def Timed (d : Debouncer) : Prop := d.pending ≠ [] → d.armed = true ∨ 0 < d.due

variable {d d' e : Debouncer} {a : Act} {acts : List Act}

/-! ## Single steps -/

theorem collect_of_cons {c : Change} {rest : List Change} (h : d.queue = c :: rest) :
    d.collect = { d with queue := rest, pending := d.pending ++ [c], armed := true } := by
  simp only [collect, h]

theorem expire_of_armed (h : d.armed = true) :
    d.expire = { d with armed := false, due := d.due + 1 } := if_pos h

theorem receive_keeps {batch : List Change} (h : d.receive = (d', some batch)) :
    d'.pending = d.pending ∧ d'.armed = d.armed ∧ d'.due = d.due := by
  unfold receive at h
  split at h
  · simp at h
  · obtain ⟨rfl, -⟩ := Prod.mk.inj h
    exact ⟨rfl, rfl, rfl⟩

theorem flush_due (h : 0 < d.due) :
    d.flush.due + 1 = d.due ∧ d.flush.queue = d.queue ∧ d.flush.pending = [] := by
  have hne : (d.due == 0) = false := beq_eq_false_iff_ne.2 (by omega)
  simp only [flush, hne, Bool.false_eq_true, if_false]
  split
  · rename_i hempty
    exact ⟨by simp only; omega, rfl, List.isEmpty_iff.1 hempty⟩
  · split <;> exact ⟨by simp only; omega, rfl, rfl⟩

theorem batches_flush (h : 0 < d.due) (hd : d.pending ≠ [] ∨ d.batches ≠ []) :
    d.flush.batches ≠ [] := by
  have hne : (d.due == 0) = false := beq_eq_false_iff_ne.2 (by omega)
  simp only [flush, hne, Bool.false_eq_true, if_false]
  split
  · rename_i hempty
    exact hd.resolve_left fun hpending => hpending (List.isEmpty_iff.1 hempty)
  · split
    · simp
    · -- no room for the batch: there are as many as the queue holds
      rename_i hroom
      intro hnone
      exact hroom (by rw [hnone]; decide)

theorem queue_add (d : Debouncer) (c : Change) : (d.add c).queue ≠ [] := by
  unfold add
  split
  · simp
  · rename_i hfull
    intro hnone
    exact hfull (by rw [hnone]; decide)

theorem add_timed (c : Change) (h : d.Timed) : (d.add c).Timed := by
  unfold add
  split <;> exact h

theorem Step.owed (h : Step d a d') (hd : d.Owed) : (∃ batch, a = .receive batch) ∨ d'.Owed := by
  cases h with
  | add c => exact .inr (.inl (queue_add d c))
  | collect hqueue =>
      obtain ⟨c, rest, hcons⟩ := List.exists_cons_of_ne_nil hqueue
      rw [collect_of_cons hcons]
      exact .inr (.inr (.inl (by simp)))
  | expire harmed =>
      rw [expire_of_armed harmed]
      exact .inr hd
  | flush hdue =>
      rcases hd with hqueue | hrest
      · exact .inr (.inl ((flush_due hdue).2.1 ▸ hqueue))
      · exact .inr (.inr (.inr (batches_flush hdue hrest)))
  | receive _ => exact .inl ⟨_, rfl⟩

theorem Step.timed (h : Step d a d') (hd : d.Timed) : d'.Timed := by
  cases h with
  | add c => exact add_timed c hd
  | collect hqueue =>
      obtain ⟨c, rest, hcons⟩ := List.exists_cons_of_ne_nil hqueue
      rw [collect_of_cons hcons]
      exact fun _ => .inl rfl
  | expire harmed =>
      rw [expire_of_armed harmed]
      exact fun _ => .inr (Nat.succ_pos d.due)
  | flush hdue => exact fun hpending => absurd (flush_due hdue).2.2 hpending
  | receive hreceive =>
      obtain ⟨hpending, harmed, hdue⟩ := receive_keeps hreceive
      rwa [Timed, hpending, harmed, hdue]

/-! ## Runs -/

theorem Runs.split {before after : List Act} (h : Runs d (before ++ after) e) :
    ∃ d', Runs d before d' ∧ Runs d' after e := by
  induction before generalizing d with
  | nil => exact ⟨d, .nil, h⟩
  | cons a before ih =>
      cases h with
      | cons hstep hrest =>
          obtain ⟨d', hbefore, hafter⟩ := ih hrest
          exact ⟨d', .cons hstep hbefore, hafter⟩

theorem Runs.owed (h : Runs d acts e) (hd : d.Owed) :
    (∃ batch, .receive batch ∈ acts) ∨ e.Owed := by
  induction h with
  | nil => exact .inr hd
  | cons hstep _ ih =>
      rcases hstep.owed hd with ⟨batch, rfl⟩ | hnext
      · exact .inl ⟨batch, List.mem_cons_self⟩
      · rcases ih hnext with ⟨batch, hbatch⟩ | howed
        · exact .inl ⟨batch, List.mem_cons_of_mem _ hbatch⟩
        · exact .inr howed

theorem Runs.timed (h : Runs d acts e) (hd : d.Timed) : e.Timed := by
  induction h with
  | nil => exact hd
  | cons hstep _ ih => exact ih (hstep.timed hd)

theorem timed_idle : idle.Timed := fun hpending => absurd rfl hpending

/-! ## What is owed can be delivered -/

/-- A batch can be taken without another change being added. -/
def Delivers (d : Debouncer) : Prop :=
  ∃ acts batch e, Runs d (acts ++ [.receive batch]) e ∧ ∀ c, .add c ∉ acts

theorem Delivers.step (h : Step d a d') (ha : ∀ c, a ≠ .add c) (hd : d'.Delivers) : d.Delivers := by
  obtain ⟨acts, batch, e, hruns, hadd⟩ := hd
  refine ⟨a :: acts, batch, e, .cons h hruns, fun c hc => ?_⟩
  rcases List.mem_cons.1 hc with hsame | hlater
  · exact ha c hsame.symm
  · exact hadd c hlater

theorem delivers_of_batches (h : d.batches ≠ []) : d.Delivers := by
  obtain ⟨batch, rest, hcons⟩ := List.exists_cons_of_ne_nil h
  have hreceive : d.receive = ({ d with batches := rest }, some batch) := by
    simp only [receive, hcons]
  exact ⟨[], batch, _, .cons (.receive hreceive) .nil, fun c hc => nomatch hc⟩

theorem delivers_of_pending (h : d.pending ≠ []) (hd : d.Timed) : d.Delivers := by
  have hflush (d : Debouncer) (hpending : d.pending ≠ []) (hdue : 0 < d.due) : d.Delivers :=
    (delivers_of_batches (batches_flush hdue (.inl hpending))).step (.flush hdue) nofun
  rcases hd h with harmed | hdue
  · have hexpired : d.expire.Delivers := by
      rw [expire_of_armed harmed]
      exact hflush _ h (Nat.succ_pos _)
    exact hexpired.step (.expire harmed) nofun
  · exact hflush d h hdue

/-- In whatever state a rebuild is owed, collecting, the timer and the flush bring it about. -/
theorem delivers_of_owed (h : Runs idle acts d) (hd : d.Owed) : d.Delivers := by
  have htimed := h.timed timed_idle
  rcases hd with hqueue | hpending | hbatches
  · have hcollect : Step d .collect d.collect := .collect hqueue
    obtain ⟨c, rest, hcons⟩ := List.exists_cons_of_ne_nil hqueue
    have hpending : d.collect.pending ≠ [] := by
      rw [collect_of_cons hcons]
      simp
    exact (delivers_of_pending hpending (hcollect.timed htimed)).step hcollect nofun
  · exact delivers_of_pending hpending htimed
  · exact delivers_of_batches hbatches

/-- Whatever happens to a debouncer: for every change that was added, also one that was dropped, a
batch was taken since or something waits that becomes one; and changes that were collected have a
timer that is armed or a flush that is due. -/
theorem rebuild_owed (h : Runs idle acts d) :
    (∀ before c after, acts = before ++ .add c :: after →
      (∃ batch, .receive batch ∈ after) ∨ d.queue ≠ [] ∨ d.pending ≠ [] ∨ d.batches ≠ []) ∧
      (d.pending ≠ [] → d.armed = true ∨ 0 < d.due) := by
  refine ⟨?_, h.timed timed_idle⟩
  rintro before c after rfl
  obtain ⟨_, -, hadd⟩ := h.split
  cases hadd with
  | cons hstep hafter =>
      cases hstep with
      | add => exact hafter.owed (.inl (queue_add _ c))

theorem runs_adds (d : Debouncer) (cs : List Change) : Runs d (cs.map .add) (cs.foldl add d) := by
  induction cs generalizing d with
  | nil => exact .nil
  | cons c cs ih => exact .cons (.add d c) (ih (d.add c))

theorem Runs.append {acts' : List Act} (h : Runs d acts d') (h' : Runs d' acts' e) :
    Runs d (acts ++ acts') e := by
  induction h with
  | nil => exact h'
  | cons hstep _ ih => exact .cons hstep (ih h')

/-- A change that finds the queue full is dropped, and the batch of another makes up for it. -/
theorem rebuild_owed_fullQueue : ∃ edit removal : Change, ∃ d,
    Runs idle ((List.replicate 100 edit).map .add ++
      .add removal :: [.collect, .expire, .flush, .collect]) d ∧
      removal ∉ d.queue ∧ d.pending = [edit] ∧ d.batches = [[edit]] ∧
      ((∃ batch, .receive batch ∈ [Act.collect, .expire, .flush, .collect]) ∨
        d.queue ≠ [] ∨ d.pending ≠ [] ∨ d.batches ≠ []) ∧
      (d.pending ≠ [] → d.armed = true ∨ 0 < d.due) := by
  let edit : Change := ⟨.modified, "a.html", 1, true⟩
  let removal : Change := ⟨.deleted, "b.html", 0, false⟩
  have hruns := (runs_adds idle (List.replicate 100 edit)).append <|
    .cons (.add _ removal) <| .cons (.collect (by decide +kernel)) <|
      .cons (.expire (by decide +kernel)) <| .cons (.flush (by decide +kernel)) <|
        .cons (.collect (by decide +kernel)) .nil
  refine ⟨edit, removal, _, hruns, ?_, ?_, ?_, ?_⟩
  · decide +kernel
  · decide +kernel
  · decide +kernel
  · exact ⟨(rebuild_owed hruns).1 _ removal _ rfl, (rebuild_owed hruns).2⟩

variable {d₀ : Debouncer} {c c' : Change} {cs b b' : List Change}

/-! ## The last change of a path -/

/-- A change that no other one of its path comes after. -/
def IsLast (cs : List Change) (c : Change) : Prop :=
  ∃ before after, cs = before ++ c :: after ∧ ∀ e ∈ after, e.path ≠ c.path

theorem isLast_cons (first : Change) :
    IsLast (first :: cs) c ↔ IsLast cs c ∨ first = c ∧ ∀ e ∈ cs, e.path ≠ c.path := by
  constructor
  · rintro ⟨before, after, hcs, hafter⟩
    cases before with
    | nil =>
        obtain ⟨rfl, rfl⟩ := List.cons.inj hcs
        exact .inr ⟨rfl, hafter⟩
    | cons _ before =>
        obtain ⟨-, rfl⟩ := List.cons.inj hcs
        exact .inl ⟨before, after, rfl, hafter⟩
  · rintro (⟨before, after, rfl, hafter⟩ | ⟨rfl, hafter⟩)
    · exact ⟨first :: before, after, rfl, hafter⟩
    · exact ⟨[], cs, rfl, hafter⟩

theorem IsLast.mem (h : IsLast cs c) : c ∈ cs := by
  obtain ⟨before, after, rfl, -⟩ := h
  simp

theorem IsLast.unique (h : IsLast cs c) (h' : IsLast cs c') (hpath : c.path = c'.path) :
    c = c' := by
  induction cs with
  | nil => exact absurd h.mem List.not_mem_nil
  | cons first cs ih =>
      rw [isLast_cons] at h h'
      obtain h | ⟨rfl, hafter⟩ := h
      · obtain h' | ⟨rfl, hafter'⟩ := h'
        · exact ih h h'
        · exact absurd hpath (hafter' c h.mem)
      · obtain h' | ⟨rfl, -⟩ := h'
        · exact absurd hpath.symm (hafter c' h'.mem)
        · rfl

theorem exists_isLast (hc : c ∈ cs) : ∃ c', IsLast cs c' ∧ c'.path = c.path := by
  induction cs generalizing c with
  | nil => exact absurd hc List.not_mem_nil
  | cons first cs ih =>
      by_cases hlater : ∃ e ∈ cs, e.path = c.path
      · obtain ⟨e, he, hpath⟩ := hlater
        obtain ⟨c', hlast, hc'⟩ := ih he
        exact ⟨c', (isLast_cons first).2 (.inl hlast), hc'.trans hpath⟩
      · have hnone : ∀ e ∈ cs, e.path ≠ c.path := fun e he hpath => hlater ⟨e, he, hpath⟩
        obtain rfl | hc := List.mem_cons.1 hc
        · exact ⟨c, (isLast_cons c).2 (.inr ⟨rfl, hnone⟩), rfl⟩
        · exact absurd rfl (hnone c hc)

theorem mem_lastPerPath : c ∈ lastPerPath cs ↔ IsLast cs c := by
  induction cs with
  | nil => exact ⟨fun h => absurd h List.not_mem_nil, fun h => absurd h.mem List.not_mem_nil⟩
  | cons first cs ih =>
      rw [lastPerPath, isLast_cons, ← ih]
      split
      · next hlater =>
        obtain ⟨e, he, hpath⟩ := List.any_eq_true.1 hlater
        refine ⟨.inl, fun h => h.resolve_right ?_⟩
        rintro ⟨rfl, hafter⟩
        exact hafter e he (by simpa using hpath)
      · next hlast =>
        have hafter : ∀ e ∈ cs, e.path ≠ first.path := by simpa using hlast
        rw [List.mem_cons]
        constructor
        · rintro (rfl | hc)
          · exact .inr ⟨rfl, hafter⟩
          · exact .inl hc
        · rintro (hc | ⟨rfl, -⟩)
          · exact .inr hc
          · exact .inl rfl

theorem nodup_path_lastPerPath (cs : List Change) : ((lastPerPath cs).map (·.path)).Nodup := by
  induction cs with
  | nil => exact List.nodup_nil
  | cons first cs ih =>
      rw [lastPerPath]
      split
      · exact ih
      · next hlast =>
        have hafter : ∀ e ∈ cs, e.path ≠ first.path := by simpa using hlast
        refine List.nodup_cons.2 ⟨fun hmem => ?_, ih⟩
        obtain ⟨e, he, hpath⟩ := List.mem_map.1 hmem
        exact hafter e (mem_lastPerPath.1 he).mem hpath

/-! ## Batches -/

structure IsBatch (cs b : List Change) : Prop where
  ordered : (b.map (·.path)).Pairwise fun p q => Bytes.lt p q = true
  paths : ∀ path, path ∈ b.map (·.path) ↔ path ∈ cs.map (·.path)
  last : ∀ c ∈ b, IsLast cs c

theorem isBatch_batch (cs : List Change) : IsBatch cs (batch cs) := by
  have hmem (c : Change) : c ∈ batch cs ↔ IsLast cs c := by
    rw [batch, List.mem_mergeSort, mem_lastPerPath]
  refine ⟨Bytes.pairwise_lt_mergeSort Change.path (nodup_path_lastPerPath cs), fun path => ?_,
    fun c => (hmem c).1⟩
  rw [List.mem_map, List.mem_map]
  constructor
  · rintro ⟨c, hc, hpath⟩
    exact ⟨c, ((hmem c).1 hc).mem, hpath⟩
  · rintro ⟨c, hc, rfl⟩
    obtain ⟨c', hlast, hpath⟩ := exists_isLast hc
    exact ⟨c', (hmem c').2 hlast, hpath⟩

theorem IsBatch.mem_iff (h : IsBatch cs b) : c ∈ b ↔ IsLast cs c := by
  refine ⟨h.last c, fun hlast => ?_⟩
  have hpath := (h.paths c.path).2 (List.mem_map_of_mem hlast.mem)
  obtain ⟨c', hc', hsame⟩ := List.mem_map.1 hpath
  rwa [← (h.last c' hc').unique hlast hsame]

theorem IsBatch.unique (h : IsBatch cs b) (h' : IsBatch cs b') : b = b' := by
  have hsorted {b : List Change} (h : IsBatch cs b) :
      b.Pairwise fun c c' => Bytes.lt c.path c'.path = true := List.pairwise_map.1 h.ordered
  have hirrefl : ∀ c c' : Change, Bytes.lt c.path c'.path = true → c ≠ c' := by
    rintro c _ hlt rfl
    simp [Bytes.lt_irrefl] at hlt
  have hperm : b.Perm b' := (List.perm_ext_iff_of_nodup ((hsorted h).imp (hirrefl _ _))
    ((hsorted h').imp (hirrefl _ _))).2 fun c => h.mem_iff.trans h'.mem_iff.symm
  refine List.Perm.eq_of_pairwise (fun c c' _ _ hlt hgt => ?_) (hsorted h) (hsorted h') hperm
  simp [Bytes.lt_asymm hlt] at hgt

/-! ## Bursts -/

/-- What happens from one state to another, with the changes that are collected meanwhile. -/
inductive Collects : Debouncer → List Act → List Change → Debouncer → Prop where
  | nil {d : Debouncer} : Collects d [] [] d
  | collect {d e : Debouncer} {acts : List Act} {c : Change} {rest cs : List Change}
      (h : d.queue = c :: rest) (hrest : Collects d.collect acts cs e) :
      Collects d (.collect :: acts) (c :: cs) e
  | other {d d' e : Debouncer} {a : Act} {acts : List Act} {cs : List Change} (hstep : Step d a d')
      (ha : a ≠ .collect) (hrest : Collects d' acts cs e) : Collects d (a :: acts) cs e

theorem Runs.exists_collects (h : Runs d acts e) : ∃ cs, Collects d acts cs e := by
  induction h with
  | nil => exact ⟨[], .nil⟩
  | @cons d d' e a acts hstep hrest ih =>
      obtain ⟨cs, hcs⟩ := ih
      by_cases ha : a = .collect
      · subst ha
        cases hstep with
        | collect hqueue =>
            obtain ⟨c, rest, hcons⟩ := List.exists_cons_of_ne_nil hqueue
            exact ⟨c :: cs, .collect hcons hcs⟩
      · exact ⟨cs, .other hstep ha hcs⟩

theorem pending_add (d : Debouncer) (c : Change) : (d.add c).pending = d.pending := by
  unfold add
  split <;> rfl

theorem Step.pending (h : Step d a d') (hcollect : a ≠ .collect) (hflush : a ≠ .flush) :
    d'.pending = d.pending := by
  cases h with
  | add c => exact pending_add d c
  | collect => exact absurd rfl hcollect
  | expire harmed => rw [expire_of_armed harmed]
  | flush => exact absurd rfl hflush
  | receive h => exact (receive_keeps h).1

theorem Collects.pending (h : Collects d acts cs e) (hflush : .flush ∉ acts) :
    e.pending = d.pending ++ cs := by
  induction h with
  | nil => rw [List.append_nil]
  | collect hqueue hrest ih =>
      rw [ih (fun hmem => hflush (List.mem_cons_of_mem _ hmem)), collect_of_cons hqueue,
        List.append_assoc, List.singleton_append]
  | other hstep ha hrest ih =>
      rw [List.mem_cons, not_or] at hflush
      rw [ih hflush.2, hstep.pending ha (Ne.symm hflush.1)]

/-! ## Flushes -/

/-- What a flush does with the changes collected since the one before: it sends their batch, if
there are any and there is room for it, and keeps none of them. -/
structure Sends (d : Debouncer) (cs : List Change) : Prop where
  sent : cs ≠ [] → d.batches.length < batchLimit →
    ∃ b, IsBatch cs b ∧ (∀ b', IsBatch cs b' → b' = b) ∧ d.flush.batches = d.batches ++ [b]
  dropped : cs = [] ∨ batchLimit ≤ d.batches.length → d.flush.batches = d.batches
  emptied : d.flush.pending = []

theorem sends_pending (hdue : 0 < d.due) : Sends d d.pending := by
  have hne : (d.due == 0) = false := beq_eq_false_iff_ne.2 (by omega)
  refine ⟨fun hpending hroom => ⟨batch d.pending, isBatch_batch _, fun b' hb' =>
    hb'.unique (isBatch_batch _), ?_⟩, fun hnone => ?_, (flush_due hdue).2.2⟩
  · have hempty : d.pending.isEmpty = false := by simpa using hpending
    simp only [flush, hne, hempty, hroom, Bool.false_eq_true, if_false, if_true]
  · simp only [flush, hne, Bool.false_eq_true, if_false]
    split
    · rfl
    · next hpending =>
      have hfull := hnone.resolve_left fun hnil => hpending (by rw [hnil]; rfl)
      rw [if_neg (Nat.not_lt.2 hfull)]

/-- A flush sends the one batch of the changes collected since nothing was pending, and the flush
after it that of the changes collected in between. -/
theorem flush_sends_burst (hnone : d₀.pending = []) (h : Collects d₀ acts cs d)
    (hflush : .flush ∉ acts) (hdue : 0 < d.due) :
    Sends d cs ∧ ∀ acts' later e, Collects d.flush acts' later e → .flush ∉ acts' → 0 < e.due →
      Sends e later := by
  have hsends {d₀ d : Debouncer} {acts : List Act} {cs : List Change} (hnone : d₀.pending = [])
      (h : Collects d₀ acts cs d) (hflush : .flush ∉ acts) (hdue : 0 < d.due) : Sends d cs := by
    have hpending := h.pending hflush
    rw [hnone, List.nil_append] at hpending
    exact hpending ▸ sends_pending hdue
  have hfirst := hsends hnone h hflush hdue
  exact ⟨hfirst, fun acts' later e => hsends hfirst.emptied⟩

/-- A page is created, another one edited, and the first one edited too; then it is deleted. -/
theorem flush_sends_burst_twoPages : ∃ created edited rewritten removed : Change, ∃ d e,
    Collects idle (([created, edited, rewritten].map .add) ++
      [.collect, .collect, .collect, .expire]) [created, edited, rewritten] d ∧
    Sends d [created, edited, rewritten] ∧ d.flush.batches = [[edited, rewritten]] ∧
    Collects d.flush [.add removed, .collect, .expire] [removed] e ∧ Sends e [removed] ∧
    e.flush.batches = [[edited, rewritten], [removed]] := by
  let created : Change := ⟨.created, "b.html", 1, true⟩
  let edited : Change := ⟨.modified, "a.html", 2, true⟩
  let rewritten : Change := ⟨.modified, "b.html", 3, true⟩
  let removed : Change := ⟨.deleted, "b.html", 0, false⟩
  let d := ([created, edited, rewritten].foldl add idle).collect.collect.collect.expire
  let sent : Debouncer := ⟨[], [], [[edited, rewritten]], false, 0⟩
  let e := (sent.add removed).collect.expire
  have hsent : d.flush = sent := by
    unfold d sent created edited rewritten
    decide_cbv
  have hfirst : Collects idle _ [created, edited, rewritten] d :=
    .other (.add _ created) (by simp) <| .other (.add _ edited) (by simp) <|
      .other (.add _ rewritten) (by simp) <| .collect rfl <| .collect rfl <| .collect rfl <|
        .other (.expire rfl) (by simp) .nil
  have hsecond : Collects d.flush [.add removed, .collect, .expire] [removed] e := by
    rw [hsent]
    exact .other (.add _ removed) (by simp) <| .collect rfl <|
      .other (.expire rfl) (by simp) .nil
  obtain ⟨hsends, hlater⟩ := flush_sends_burst rfl hfirst (by decide) (by decide)
  refine ⟨created, edited, rewritten, removed, d, e, hfirst, hsends, ?_, hsecond,
    hlater _ _ _ hsecond (by decide) (by decide), ?_⟩
  · rw [hsent]
  · unfold e sent edited rewritten removed
    decide_cbv

end TagLoom.Debouncer

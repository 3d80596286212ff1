import Mathlib.Data.List.Nodup
import TagLoom.Hub

/-!
# What clients of a hub are sent

A message is offered to the connected clients one by one while nobody may come or go.  Those found
full are dropped afterwards, one by one, and by then clients may come and go again.  However all of
this is mixed, a client is sent the messages since it came, one after the other, until it goes.
-/

namespace TagLoom.Hub

variable {μ : Type}

/-- How far a message has come: the clients still to be served, and those found full. -/
inductive Stage (μ : Type) where
  | idle
  | sending (m : μ) (waiting full : List Nat)
  | dropping (m : μ) (full : List Nat)

/-- Whether clients may come and go. -/
def Stage.isFree : Stage μ → Bool
  | .sending _ _ _ => false
  | .idle | .dropping _ _ => true

/-- The message under way, as long as a client has not been sent it. -/
def Stage.owed (id : Nat) : Stage μ → List μ
  | .idle => []
  | .sending m waiting full => if id ∈ waiting ∨ id ∈ full then [m] else []
  | .dropping m full => if id ∈ full then [m] else []

/-- A channel whose first message was taken out. -/
def takeFirst (c : Channel μ) : Channel μ := { c with queue := c.queue.tail }

structure Traffic (μ : Type) where
  hub : Hub μ
  stage : Stage μ

def quiet : Traffic μ := ⟨empty, .idle⟩

inductive Act (μ : Type) where
  | add (id capacity : Nat)
  | remove (id : Nat)
  | closeAll
  | receive (id : Nat) (m : μ)
  | start (m : μ)
  | serve (id : Nat)
  | unlock
  | drop (id : Nat)
  | finish
deriving DecidableEq

/-- What can happen next.  Clients are served in any order; a client takes messages out of its
channel at any time, also once it is closed. -/
inductive Step : Traffic μ → Act μ → Traffic μ → Prop where
  | add {w : Traffic μ} {id : Nat} (capacity : Nat) (hfree : w.stage.isFree = true)
      (hnew : w.hub.channel? id = none) :
      Step w (.add id capacity) { w with hub := w.hub.add id capacity }
  | remove {w : Traffic μ} (id : Nat) (hfree : w.stage.isFree = true) :
      Step w (.remove id) { w with hub := w.hub.remove id }
  | closeAll {w : Traffic μ} (hfree : w.stage.isFree = true) :
      Step w .closeAll { w with hub := w.hub.closeAll }
  | receive {w : Traffic μ} {id : Nat} {c : Channel μ} {m : μ} {rest : List μ}
      (hchannel : w.hub.channel? id = some c) (hqueue : c.queue = m :: rest) :
      Step w (.receive id m) { w with hub := w.hub.update id takeFirst }
  | start (h : Hub μ) (m : μ) : Step ⟨h, .idle⟩ (.start m) ⟨h, .sending m h.connected []⟩
  | send {h : Hub μ} {m : μ} {waiting full : List Nat} {id : Nat} (hwaits : id ∈ waiting)
      (hroom : h.isFull id = false) :
      Step ⟨h, .sending m waiting full⟩ (.serve id)
        ⟨h.update id (·.send m), .sending m (waiting.erase id) full⟩
  | skip {h : Hub μ} {m : μ} {waiting full : List Nat} {id : Nat} (hwaits : id ∈ waiting)
      (hfull : h.isFull id = true) :
      Step ⟨h, .sending m waiting full⟩ (.serve id)
        ⟨h, .sending m (waiting.erase id) (full ++ [id])⟩
  | unlock (h : Hub μ) (m : μ) (full : List Nat) :
      Step ⟨h, .sending m [] full⟩ .unlock ⟨h, .dropping m full⟩
  | drop (h : Hub μ) (m : μ) (id : Nat) (full : List Nat) :
      Step ⟨h, .dropping m (id :: full)⟩ (.drop id) ⟨h.remove id, .dropping m full⟩
  | finish (h : Hub μ) (m : μ) : Step ⟨h, .dropping m []⟩ .finish ⟨h, .idle⟩

inductive Runs : Traffic μ → List (Act μ) → Traffic μ → Prop where
  | nil {w : Traffic μ} : Runs w [] w
  | cons {w w' e : Traffic μ} {a : Act μ} {acts : List (Act μ)} (hstep : Step w a w')
      (hrest : Runs w' acts e) : Runs w (a :: acts) e

/-- The messages that went out, in order. -/
def broadcasts (acts : List (Act μ)) : List μ :=
  acts.filterMap fun
    | .start m => some m
    | _ => none

/-- The messages a client took out of its channel, in order. -/
def received (id : Nat) (acts : List (Act μ)) : List μ :=
  acts.filterMap fun
    | .receive i m => if i = id then some m else none
    | _ => none

variable {h : Hub μ} {id i : Nat} {c : Channel μ} {w w' e : Traffic μ} {a : Act μ}
  {acts : List (Act μ)}

theorem broadcasts_cons (a : Act μ) (acts : List (Act μ)) :
    broadcasts (a :: acts) = broadcasts [a] ++ broadcasts acts :=
  List.filterMap_append (l := [a])

theorem received_cons (id : Nat) (a : Act μ) (acts : List (Act μ)) :
    received id (a :: acts) = received id [a] ++ received id acts :=
  List.filterMap_append (l := [a])

/-! ## Channels -/

theorem channel?_update (h : Hub μ) (i : Nat) (f : Channel μ → Channel μ) (id : Nat) :
    (h.update i f).channel? id = (h.channel? id).map fun c => if id = i then f c else c := by
  have hkey : ((fun entry : Nat × Channel μ => entry.1 == id) ∘
      fun entry => if entry.1 == i then (entry.1, f entry.2) else entry) =
        fun entry => entry.1 == id := by
    funext entry
    rw [Function.comp_apply]
    split <;> rfl
  rw [channel?, update]
  simp only
  rw [List.find?_map, hkey, channel?, Option.map_map, Option.map_map]
  refine Option.map_congr fun entry hentry => ?_
  have hid : entry.1 = id := by simpa using List.find?_some hentry
  simp only [Function.comp_apply, hid, beq_iff_eq]
  split <;> rfl

theorem ids_update (h : Hub μ) (i : Nat) (f : Channel μ → Channel μ) :
    (h.update i f).channels.map (·.1) = h.channels.map (·.1) := by
  simp only [update, List.map_map]
  refine List.map_congr_left fun entry _ => ?_
  rw [Function.comp_apply]
  split <;> rfl

theorem update_update (h : Hub μ) (i : Nat) (f g : Channel μ → Channel μ) :
    (h.update i f).update i g = h.update i (g ∘ f) := by
  simp only [update, List.map_map]
  congr 1
  refine List.map_congr_left fun entry _ => ?_
  by_cases hi : entry.1 = i <;> simp [hi]

theorem update_eq_self {f : Channel μ → Channel μ} (hf : ∀ c, (i, c) ∈ h.channels → f c = c) :
    h.update i f = h := by
  simp only [update]
  congr 1
  refine (List.map_congr_left fun entry hentry => ?_).trans (List.map_id _)
  split
  · rename_i hi
    rw [beq_iff_eq] at hi
    subst hi
    exact Prod.ext rfl (hf _ hentry)
  · rfl

theorem channel?_eq_some (hids : (h.channels.map (·.1)).Nodup) (hc : (i, c) ∈ h.channels) :
    h.channel? i = some c := by
  have hfound : (h.channels.find? (·.1 == i)).isSome = true :=
    List.find?_isSome.2 ⟨(i, c), hc, beq_self_eq_true i⟩
  obtain ⟨entry, hentry⟩ := Option.isSome_iff_exists.1 hfound
  have hi : entry.1 = i := by simpa using List.find?_some hentry
  obtain rfl : entry = (i, c) :=
    List.inj_on_of_nodup_map hids (List.mem_of_find?_eq_some hentry) hc hi
  rw [channel?, hentry, Option.map_some]

theorem channel?_add (hnew : h.channel? i = none) (capacity id : Nat) :
    (h.add i capacity).channel? id = if id = i then some (.new capacity) else h.channel? id := by
  simp only [channel?, Option.map_eq_none_iff] at hnew
  simp only [channel?, add, List.find?_append]
  by_cases hi : id = i
  · subst hi
    simp [hnew]
  · have hne : (i == id) = false := beq_eq_false_iff_ne.2 fun h => hi h.symm
    simp [hi, hne]

theorem connected_remove (h : Hub μ) (i : Nat) :
    (h.remove i).connected = h.connected.filter (· != i) := by
  unfold remove
  split
  · rfl
  · rename_i hout
    refine (List.filter_eq_self.2 fun id hid => ?_).symm
    rw [bne_iff_ne]
    rintro rfl
    exact hout (List.contains_iff_mem.2 hid)

theorem channel?_remove (h : Hub μ) (i id : Nat) :
    (h.remove i).channel? id =
      (h.channel? id).map fun c => if id = i ∧ i ∈ h.connected then c.close else c := by
  unfold remove
  split
  · rename_i hin
    have hin : i ∈ h.connected := by simpa using hin
    have hupdate := channel?_update h i Channel.close id
    simp only [hin, and_true]
    exact hupdate
  · rename_i hout
    have hout : i ∉ h.connected := by simpa using hout
    simp [hout]

theorem queue_close (c : Channel μ) : c.close.queue = c.queue := by
  unfold Channel.close
  split <;> rfl

/-! ## Clients and their channels -/

/-- Exactly the clients with an open channel are connected, and no channel was sent to or closed
after it was closed. -/
structure Sound (h : Hub μ) : Prop where
  ids : (h.channels.map (·.1)).Nodup
  nodup : h.connected.Nodup
  open_iff : ∀ id, id ∈ h.connected ↔ ∃ c, h.channel? id = some c ∧ c.closed = false
  proper : ∀ id c, h.channel? id = some c → c.misused = false

theorem sound_empty : Sound (empty : Hub μ) := by
  constructor
  · exact List.nodup_nil
  · exact List.nodup_nil
  · intro id
    simp [empty, channel?]
  · intro id c hc
    simp [empty, channel?] at hc

theorem Sound.add (hh : Sound h) (hnew : h.channel? i = none) (capacity : Nat) :
    Sound (h.add i capacity) := by
  have hout : i ∉ h.connected := fun hi => by
    obtain ⟨c, hc, -⟩ := (hh.open_iff i).1 hi
    rw [hnew] at hc
    cases hc
  constructor
  · have hids : i ∉ h.channels.map (·.1) := fun hi => by
      obtain ⟨⟨_, c⟩, hc, rfl⟩ := List.mem_map.1 hi
      rw [channel?_eq_some hh.ids hc] at hnew
      cases hnew
    simp only [Hub.add, List.map_append]
    exact List.nodup_append.2 ⟨hh.ids, by simp, by grind⟩
  · exact List.nodup_append.2 ⟨hh.nodup, by simp, by grind⟩
  · intro id
    rw [channel?_add hnew]
    by_cases hid : id = i
    · subst hid
      simp [Hub.add, Channel.new]
    · simp [Hub.add, hid, hh.open_iff]
  · intro id c hc
    rw [channel?_add hnew] at hc
    split at hc
    · cases hc
      rfl
    · exact hh.proper id c hc

theorem Sound.update (hh : Sound h) {f : Channel μ → Channel μ}
    (hf : ∀ c, h.channel? i = some c → (f c).closed = c.closed ∧ (f c).misused = c.misused) :
    Sound (h.update i f) := by
  constructor
  · rw [ids_update]
    exact hh.ids
  · exact hh.nodup
  · intro id
    rw [channel?_update]
    refine (hh.open_iff id).trans ?_
    cases hc : h.channel? id with
    | none => simp
    | some c =>
        by_cases hid : id = i
        · subst hid
          simp [(hf c hc).1]
        · simp [hid]
  · intro id c' hc'
    rw [channel?_update, Option.map_eq_some_iff] at hc'
    obtain ⟨c, hc, rfl⟩ := hc'
    split
    · rename_i hid
      subst hid
      rw [(hf c hc).2, hh.proper id c hc]
    · exact hh.proper id c hc

theorem Sound.remove (hh : Sound h) (i : Nat) : Sound (h.remove i) := by
  constructor
  · unfold Hub.remove
    split
    · exact (ids_update h i Channel.close).symm ▸ hh.ids
    · exact hh.ids
  · rw [connected_remove]
    exact hh.nodup.filter _
  · intro id
    rw [connected_remove, channel?_remove, List.mem_filter, bne_iff_ne, hh.open_iff]
    by_cases hid : id = i
    · subst hid
      simp only [ne_eq, not_true_eq_false, and_false, true_and, Option.map_eq_some_iff, false_iff]
      rintro ⟨_, ⟨c, hc, rfl⟩, hopen⟩
      split at hopen
      · cases hclosed : c.closed <;> simp [Channel.close, hclosed] at hopen
      · rename_i hout
        exact hout ((hh.open_iff id).2 ⟨c, hc, hopen⟩)
    · simp [hid]
  · intro id c' hc'
    rw [channel?_remove, Option.map_eq_some_iff] at hc'
    obtain ⟨c, hc, rfl⟩ := hc'
    split
    · rename_i hin
      obtain ⟨rfl, hin⟩ := hin
      obtain ⟨c₁, hc₁, hopen⟩ := (hh.open_iff id).1 hin
      obtain rfl : c₁ = c := Option.some.inj (hc₁.symm.trans hc)
      simp [Channel.close, hopen, hh.proper id c₁ hc]
    · exact hh.proper id c hc

theorem Sound.removeAll (hh : Sound h) (ids : List Nat) : Sound (h.removeAll ids) :=
  List.foldlRecOn ids Hub.remove hh fun _ hh i _ => hh.remove i

theorem mem_of_mem_remove (hid : id ∈ (h.remove i).connected) : id ∈ h.connected := by
  rw [connected_remove] at hid
  exact (List.mem_filter.1 hid).1

theorem mem_of_mem_removeAll {ids : List Nat} (hid : id ∈ (h.removeAll ids).connected) :
    id ∈ h.connected := by
  induction ids generalizing h with
  | nil => exact hid
  | cons i ids ih => exact mem_of_mem_remove (ih hid)

theorem exists_channel?_remove (hc : h.channel? id = some c) (i : Nat) :
    ∃ c', (h.remove i).channel? id = some c' ∧ c'.queue = c.queue := by
  rw [channel?_remove, hc]
  refine ⟨_, rfl, ?_⟩
  split
  · exact queue_close c
  · rfl

theorem exists_channel?_removeAll (hc : h.channel? id = some c) (ids : List Nat) :
    ∃ c', (h.removeAll ids).channel? id = some c' ∧ c'.queue = c.queue := by
  induction ids generalizing h c with
  | nil => exact ⟨c, hc, rfl⟩
  | cons i ids ih =>
      obtain ⟨c₁, hc₁, hqueue₁⟩ := exists_channel?_remove hc i
      obtain ⟨c₂, hc₂, hqueue₂⟩ := ih hc₁
      exact ⟨c₂, hc₂, hqueue₂.trans hqueue₁⟩

/-! ## One step -/

/-- The clients waiting for a message are connected and have not been found full, and all that were
found full have a channel. -/
def Stage.Fits (h : Hub μ) : Stage μ → Prop
  | .idle => True
  | .sending _ waiting full => waiting.Nodup ∧ (∀ id ∈ waiting, id ∈ h.connected ∧ id ∉ full) ∧
      ∀ id ∈ full, h.channel? id ≠ none
  | .dropping _ full => ∀ id ∈ full, h.channel? id ≠ none

structure Traffic.Sound (w : Traffic μ) : Prop where
  hub : w.hub.Sound
  stage : w.stage.Fits w.hub

theorem Stage.Fits.congr {h h' : Hub μ} {s : Stage μ} (hs : s.Fits h)
    (hconnected : s.isFree = true ∨ h'.connected = h.connected)
    (hchannels : ∀ id, h.channel? id ≠ none → h'.channel? id ≠ none) : s.Fits h' := by
  cases s with
  | idle => trivial
  | sending m waiting full =>
      obtain ⟨hnodup, hwaiting, hfull⟩ := hs
      have hsame : h'.connected = h.connected := hconnected.resolve_left Bool.false_ne_true
      exact ⟨hnodup, hsame ▸ hwaiting, fun id hid => hchannels id (hfull id hid)⟩
  | dropping m full => exact fun id hid => hchannels id (hs id hid)

theorem channel?_update_ne_none {f : Channel μ → Channel μ} :
    (h.update i f).channel? id ≠ none ↔ h.channel? id ≠ none := by
  rw [channel?_update, ne_eq, Option.map_eq_none_iff]

theorem Traffic.Sound.step (hw : w.Sound) (hstep : Step w a w') : w'.Sound := by
  obtain ⟨hhub, hstage⟩ := hw
  cases hstep with
  | add capacity hfree hnew =>
      refine ⟨hhub.add hnew capacity, hstage.congr (.inl hfree) fun id hid => ?_⟩
      simp only [channel?_add hnew]
      split
      · simp
      · exact hid
  | remove i hfree =>
      refine ⟨hhub.remove i, hstage.congr (.inl hfree) fun id hid => ?_⟩
      obtain ⟨c, hc⟩ := Option.ne_none_iff_exists'.1 hid
      obtain ⟨c', hc', -⟩ := exists_channel?_remove hc i
      simp [hc']
  | closeAll hfree =>
      refine ⟨hhub.removeAll _, hstage.congr (.inl hfree) fun id hid => ?_⟩
      obtain ⟨c, hc⟩ := Option.ne_none_iff_exists'.1 hid
      obtain ⟨c', hc', -⟩ := exists_channel?_removeAll hc w.hub.connected
      simp [closeAll, hc']
  | receive hchannel hqueue =>
      exact ⟨hhub.update fun _ _ => ⟨rfl, rfl⟩,
        hstage.congr (.inr rfl) fun id hid => channel?_update_ne_none.2 hid⟩
  | start h m => exact ⟨hhub, hhub.nodup, fun id hid => ⟨hid, by simp⟩, by simp⟩
  | @send h m waiting full i hwaits hroom =>
      obtain ⟨hnodup, hwaiting, hfull⟩ := hstage
      obtain ⟨c, hc, hopen⟩ := (hhub.open_iff i).1 (hwaiting i hwaits).1
      refine ⟨hhub.update (f := (·.send m)) fun c' hc' => ?_, hnodup.erase i, fun id hid => ?_,
        fun id hid => ?_⟩
      · obtain rfl : c = c' := Option.some.inj (hc.symm.trans hc')
        simp [Channel.send, hopen]
      · exact hwaiting id (List.mem_of_mem_erase hid)
      · exact channel?_update_ne_none.2 (hfull id hid)
  | @skip h m waiting full i hwaits hfull =>
      obtain ⟨hnodup, hwaiting, hfull⟩ := hstage
      obtain ⟨c, hc, -⟩ := (hhub.open_iff i).1 (hwaiting i hwaits).1
      refine ⟨hhub, hnodup.erase i, fun id hid => ?_, fun id hid => ?_⟩
      · obtain ⟨hne, hid⟩ := hnodup.mem_erase_iff.1 hid
        refine ⟨(hwaiting id hid).1, ?_⟩
        simp [(hwaiting id hid).2, hne]
      · rcases List.mem_append.1 hid with hid | hid
        · exact hfull id hid
        · rw [List.mem_singleton.1 hid, hc]
          simp
  | unlock h m full => exact ⟨hhub, hstage.2.2⟩
  | drop h m i full =>
      refine ⟨hhub.remove i, fun id hid => ?_⟩
      obtain ⟨c, hc⟩ := Option.ne_none_iff_exists'.1 (hstage id (List.mem_cons_of_mem i hid))
      obtain ⟨c', hc', -⟩ := exists_channel?_remove hc i
      simp [hc']
  | finish h m => exact ⟨hhub, trivial⟩

/-- What one step does for a client that has come: what it was sent, and the message under way if it
is still to get it, grow by the messages that go out, as long as it is connected; a client that is
not, or no longer, only takes messages out. -/
theorem Step.client (hstep : Step w a w') (hw : w.Sound) (hc : w.hub.channel? id = some c) :
    ∃ c', w'.hub.channel? id = some c' ∧
      (id ∈ w'.hub.connected → id ∈ w.hub.connected ∧
        received id [a] ++ c'.queue ++ w'.stage.owed id =
          c.queue ++ w.stage.owed id ++ broadcasts [a]) ∧
      (id ∉ w'.hub.connected → received id [a] ++ c'.queue = c.queue) := by
  obtain ⟨hhub, hstage⟩ := hw
  cases hstep with
  | @add _ i capacity hfree hnew =>
      have hne : id ≠ i := by
        rintro rfl
        rw [hnew] at hc
        cases hc
      refine ⟨c, by simp [channel?_add hnew, hne, hc], fun hid => ⟨?_, ?_⟩, fun _ => rfl⟩
      · simpa [Hub.add, hne] using hid
      · simp [received, broadcasts]
  | remove i hfree =>
      obtain ⟨c', hc', hqueue⟩ := exists_channel?_remove hc i
      refine ⟨c', hc', fun hid => ⟨mem_of_mem_remove hid, ?_⟩, fun _ => hqueue⟩
      simp [received, broadcasts, hqueue]
  | closeAll hfree =>
      obtain ⟨c', hc', hqueue⟩ := exists_channel?_removeAll hc w.hub.connected
      refine ⟨c', hc', fun hid => ⟨mem_of_mem_removeAll hid, ?_⟩, fun _ => hqueue⟩
      simp [received, broadcasts, hqueue]
  | @receive _ i ci m rest hchannel hqueue =>
      have htaken : received id [.receive i m] ++
          (if id = i then (takeFirst c).queue else c.queue) = c.queue := by
        by_cases hi : id = i
        · subst hi
          obtain rfl : ci = c := Option.some.inj (hchannel.symm.trans hc)
          simp [received, takeFirst, hqueue]
        · have hne : i ≠ id := fun h => hi h.symm
          simp [received, hi, hne]
      refine ⟨_, by rw [channel?_update, hc, Option.map_some], fun hid => ⟨hid, ?_⟩, fun _ => ?_⟩
      · rw [apply_ite Channel.queue, htaken]
        simp [broadcasts]
      · rw [apply_ite Channel.queue, htaken]
  | start h m =>
      refine ⟨c, hc, fun hid => ⟨hid, ?_⟩, fun _ => rfl⟩
      have hid : id ∈ h.connected := hid
      simp [received, broadcasts, Stage.owed, hid]
  | @send h m waiting full i hwaits hroom =>
      obtain ⟨hnodup, hwaiting, -⟩ := hstage
      obtain ⟨ci, hci, hopen⟩ := (hhub.open_iff i).1 (hwaiting i hwaits).1
      refine ⟨_, by rw [channel?_update, hc, Option.map_some], fun hid => ⟨hid, ?_⟩, fun hid => ?_⟩
      · by_cases hi : id = i
        · subst hi
          obtain rfl : ci = c := Option.some.inj (hci.symm.trans hc)
          simp [received, broadcasts, Stage.owed, Channel.send, hopen, hwaits, hnodup.mem_erase_iff,
            (hwaiting id hwaits).2]
        · simp [received, broadcasts, Stage.owed, hi, List.mem_erase_of_ne hi]
      · have hne : id ≠ i := by
          rintro rfl
          exact hid (hwaiting id hwaits).1
        simp [received, hne]
  | @skip h m waiting full i hwaits hfull =>
      refine ⟨c, hc, fun hid => ⟨hid, ?_⟩, fun _ => rfl⟩
      by_cases hi : id = i
      · subst hi
        simp [received, broadcasts, Stage.owed, hwaits]
      · simp [received, broadcasts, Stage.owed, hi, List.mem_erase_of_ne hi]
  | unlock h m full =>
      exact ⟨c, hc, fun hid => ⟨hid, by simp [received, broadcasts, Stage.owed]⟩, fun _ => rfl⟩
  | drop h m i full =>
      obtain ⟨c', hc', hqueue⟩ := exists_channel?_remove hc i
      refine ⟨c', hc', fun hid => ⟨mem_of_mem_remove hid, ?_⟩, fun _ => hqueue⟩
      have hne : id ≠ i := by
        have hid : id ∈ (h.remove i).connected := hid
        rw [connected_remove, List.mem_filter, bne_iff_ne] at hid
        exact hid.2
      simp [received, broadcasts, Stage.owed, hqueue, hne]
  | finish h m =>
      exact ⟨c, hc, fun hid => ⟨hid, by simp [received, broadcasts, Stage.owed]⟩, fun _ => rfl⟩

/-! ## Runs -/

theorem Runs.append {before after : List (Act μ)} (hbefore : Runs w before w')
    (hafter : Runs w' after e) : Runs w (before ++ after) e := by
  induction hbefore with
  | nil => exact hafter
  | cons hstep _ ih => exact .cons hstep (ih hafter)

theorem Runs.split {before after : List (Act μ)} (h : Runs w (before ++ after) e) :
    ∃ w', Runs w before w' ∧ Runs w' after e := by
  induction before generalizing w with
  | nil => exact ⟨w, .nil, h⟩
  | cons a before ih =>
      cases h with
      | cons hstep hrest =>
          obtain ⟨w', hbefore, hafter⟩ := ih hrest
          exact ⟨w', .cons hstep hbefore, hafter⟩

theorem sound_quiet : (quiet : Traffic μ).Sound := ⟨sound_empty, trivial⟩

theorem Runs.sound (h : Runs w acts e) (hw : w.Sound) : e.Sound := by
  induction h with
  | nil => exact hw
  | cons hstep _ ih => exact ih (hw.step hstep)

theorem Runs.client (h : Runs w acts e) (hw : w.Sound) (hc : w.hub.channel? id = some c) :
    ∃ c', e.hub.channel? id = some c' ∧
      (id ∈ e.hub.connected → id ∈ w.hub.connected ∧
        received id acts ++ c'.queue ++ e.stage.owed id =
          c.queue ++ w.stage.owed id ++ broadcasts acts) ∧
      (id ∉ w.hub.connected → received id acts ++ c'.queue = c.queue) := by
  induction h generalizing c with
  | nil => exact ⟨c, hc, fun hid => ⟨hid, by simp [received, broadcasts]⟩, fun _ => rfl⟩
  | @cons w w₁ e a acts hstep _ ih =>
      obtain ⟨c₁, hc₁, hstays, hgone⟩ := hstep.client hw hc
      obtain ⟨c', hc', hstays', hgone'⟩ := ih (hw.step hstep) hc₁
      rw [received_cons, broadcasts_cons]
      refine ⟨c', hc', fun hid => ?_, fun hid => ?_⟩
      · obtain ⟨hid₁, hlater⟩ := hstays' hid
        obtain ⟨hid₀, hnow⟩ := hstays hid₁
        refine ⟨hid₀, ?_⟩
        calc received id [a] ++ received id acts ++ c'.queue ++ e.stage.owed id
            = received id [a] ++ (received id acts ++ c'.queue ++ e.stage.owed id) := by
              simp only [List.append_assoc]
          _ = received id [a] ++ c₁.queue ++ w₁.stage.owed id ++ broadcasts acts := by
              rw [hlater]
              simp only [List.append_assoc]
          _ = c.queue ++ w.stage.owed id ++ (broadcasts [a] ++ broadcasts acts) := by
              rw [hnow, List.append_assoc]
      · have hid₁ : id ∉ w₁.hub.connected := fun hid₁ => hid (hstays hid₁).1
        rw [List.append_assoc, hgone' hid₁, hgone hid₁]

/-- A client that is connected no longer went in some step, and was connected until then. -/
theorem Runs.leaves (h : Runs w acts e) (hin : id ∈ w.hub.connected) (hout : id ∉ e.hub.connected) :
    ∃ u a v w₁ w₂, acts = u ++ a :: v ∧ Runs w u w₁ ∧ id ∈ w₁.hub.connected ∧ Step w₁ a w₂ ∧
      id ∉ w₂.hub.connected ∧ Runs w₂ v e := by
  induction h with
  | nil => exact absurd hin hout
  | @cons w w₁ e a acts hstep hrest ih =>
      by_cases hid₁ : id ∈ w₁.hub.connected
      · obtain ⟨u, b, v, w₂, w₃, rfl, hu, hrest⟩ := ih hid₁ hout
        exact ⟨a :: u, b, v, w₂, w₃, rfl, .cons hstep hu, hrest⟩
      · exact ⟨[], a, acts, w, w₁, rfl, .nil, hin, hstep, hid₁, hrest⟩

/-- What a client has been sent when it goes stays what it has been sent. -/
theorem Runs.departed (h : Runs w acts e) (hw : w.Sound) (hc : w.hub.channel? id = some c)
    (hin : id ∈ w.hub.connected) (hout : id ∉ e.hub.connected) :
    ∃ c' u a v w₁ w₂, e.hub.channel? id = some c' ∧ acts = u ++ a :: v ∧ Runs w u w₁ ∧
      id ∈ w₁.hub.connected ∧ Step w₁ a w₂ ∧ id ∉ w₂.hub.connected ∧ Runs w₂ v e ∧
      received id acts ++ c'.queue ++ w₁.stage.owed id =
        c.queue ++ w.stage.owed id ++ broadcasts u := by
  obtain ⟨u, a, v, w₁, w₂, rfl, hu, hin₁, hstep, hout₂, hv⟩ := h.leaves hin hout
  have hw₁ : w₁.Sound := hu.sound hw
  obtain ⟨c₁, hc₁, hstays, -⟩ := hu.client hw hc
  obtain ⟨c₂, hc₂, -, hgoes⟩ := hstep.client hw₁ hc₁
  obtain ⟨c', hc', -, hgone⟩ := hv.client (hw₁.step hstep) hc₂
  refine ⟨c', u, a, v, w₁, w₂, hc', rfl, hu, hin₁, hstep, hout₂, hv, ?_⟩
  have hqueue : received id (u ++ a :: v) ++ c'.queue = received id u ++ c₁.queue :=
    calc received id (u ++ a :: v) ++ c'.queue
        = received id u ++ (received id [a] ++ (received id v ++ c'.queue)) := by
          rw [received, List.filterMap_append, ← received, ← received, received_cons]
          simp only [List.append_assoc]
      _ = received id u ++ c₁.queue := by rw [hgone hout₂, hgoes hout₂]
  rw [hqueue, (hstays hin₁).2]

theorem Step.mem_connected (hstep : Step w a w') (hid : id ∈ w'.hub.connected) :
    id ∈ w.hub.connected ∨ ∃ capacity, a = .add id capacity := by
  cases hstep with
  | add capacity hfree hnew =>
      rcases List.mem_append.1 hid with hid | hid
      · exact .inl hid
      · rw [List.mem_singleton.1 hid]
        exact .inr ⟨capacity, rfl⟩
  | remove i hfree => exact .inl (mem_of_mem_remove hid)
  | closeAll hfree => exact .inl (mem_of_mem_removeAll hid)
  | drop h m i full => exact .inl (mem_of_mem_remove hid)
  | receive | start | send | skip | unlock | finish => exact .inl hid

theorem Runs.mem_connected (h : Runs w acts e) (hid : id ∈ e.hub.connected) :
    id ∈ w.hub.connected ∨ ∃ capacity, .add id capacity ∈ acts := by
  induction h with
  | nil => exact .inl hid
  | cons hstep _ ih =>
      rcases ih hid with hid₁ | ⟨capacity, hadd⟩
      · rcases hstep.mem_connected hid₁ with hid₀ | ⟨capacity, rfl⟩
        · exact .inl hid₀
        · exact .inr ⟨capacity, List.mem_cons_self⟩
      · exact .inr ⟨capacity, List.mem_cons_of_mem _ hadd⟩

theorem owed_of_new {s : Stage μ} (hs : s.Fits h) (hfree : s.isFree = true)
    (hnew : h.channel? id = none) : s.owed id = [] := by
  cases s with
  | idle => rfl
  | sending m waiting full => cases hfree
  | dropping m full => exact if_neg fun hid => hs id hid hnew

/-- However clients come and go, take their messages and are dropped while messages go out: exactly
those that came and whose channel is open are connected, no channel is sent to or closed once it is
closed, and a client gets the messages that went out since it came, in order and without a gap, up
to the step in which it went; the message under way then is the only one that can be missing. -/
theorem sent_in_order (h : Runs quiet acts w) :
    (∀ id, id ∈ w.hub.connected ↔
      (∃ capacity, .add id capacity ∈ acts) ∧
        ∃ c, w.hub.channel? id = some c ∧ c.closed = false) ∧
    (∀ id c, w.hub.channel? id = some c → c.misused = false) ∧
    ∀ before id capacity after, acts = before ++ .add id capacity :: after →
      ∃ c, w.hub.channel? id = some c ∧
        (id ∈ w.hub.connected →
          received id after ++ c.queue ++ w.stage.owed id = broadcasts after) ∧
        (id ∉ w.hub.connected → ∃ u a v w₁ w₂, after = u ++ a :: v ∧
          Runs quiet (before ++ .add id capacity :: u) w₁ ∧ id ∈ w₁.hub.connected ∧
          Step w₁ a w₂ ∧ id ∉ w₂.hub.connected ∧ Runs w₂ v w ∧
          received id after ++ c.queue ++ w₁.stage.owed id = broadcasts u) := by
  have hw : w.Sound := h.sound sound_quiet
  refine ⟨fun id => ?_, hw.hub.proper, ?_⟩
  · constructor
    · intro hid
      refine ⟨?_, (hw.hub.open_iff id).1 hid⟩
      exact (h.mem_connected hid).resolve_left List.not_mem_nil
    · rintro ⟨-, hopen⟩
      exact (hw.hub.open_iff id).2 hopen
  · rintro before id capacity after rfl
    obtain ⟨w₀, hbefore, hrest⟩ := h.split
    have hw₀ : w₀.Sound := hbefore.sound sound_quiet
    cases hrest with
    | @cons _ w₁ _ _ _ hadd hafter =>
        have hw₁ : w₁.Sound := hw₀.step hadd
        cases hadd with
        | add _ hfree hnew =>
            have hc₁ : (w₀.hub.add id capacity).channel? id = some (.new capacity) := by
              rw [channel?_add hnew, if_pos rfl]
            have howed : w₀.stage.owed id = [] := owed_of_new hw₀.stage hfree hnew
            by_cases hid : id ∈ w.hub.connected
            · obtain ⟨c, hc, hstays, -⟩ := hafter.client hw₁ hc₁
              have hsent := (hstays hid).2
              simp only [howed] at hsent
              exact ⟨c, hc, fun _ => hsent, fun hout => absurd hid hout⟩
            · have hin : id ∈ (w₀.hub.add id capacity).connected := by simp [Hub.add]
              obtain ⟨c, u, a, v, w₁, w₂, hc, rfl, hu, hin₁, hstep, hout₂, hv, hsent⟩ :=
                hafter.departed hw₁ hc₁ hin hid
              simp only [howed] at hsent
              refine ⟨c, hc, fun hin => absurd hin hid, fun _ => ?_⟩
              have hcame := hbefore.append (.cons (.add capacity hfree hnew) hu)
              exact ⟨u, a, v, w₁, w₂, rfl, hcame, hin₁, hstep, hout₂, hv, hsent⟩

/-- Two clients come; the first takes nothing, is found full, and goes before it is dropped. -/
def crowded : List (Act Nat) :=
  [.add 1 1, .add 2 2, .start 10, .serve 2, .receive 2 10, .serve 1, .unlock, .finish,
    .start 20, .serve 1, .serve 2, .unlock, .remove 1, .drop 1, .finish, .receive 1 10]

theorem sent_in_order_crowded : ∃ w, Runs quiet crowded w ∧ 1 ∉ w.hub.connected ∧
    (∃ c, w.hub.channel? 2 = some c ∧ c.misused = false ∧
      received 2 (crowded.drop 2) ++ c.queue ++ w.stage.owed 2 = broadcasts (crowded.drop 2)) ∧
    ∃ c u a v w₁ w₂, w.hub.channel? 1 = some c ∧ crowded.drop 1 = u ++ a :: v ∧
      1 ∈ w₁.hub.connected ∧ Step w₁ a w₂ ∧ 1 ∉ w₂.hub.connected ∧
      received 1 (crowded.drop 1) ++ c.queue ++ w₁.stage.owed 1 = broadcasts u := by
  let w : Traffic Nat := ⟨⟨[2], [(1, ⟨1, [], true, false⟩), (2, ⟨2, [20], false, false⟩)]⟩, .idle⟩
  have hruns : Runs quiet crowded w := by
    refine .cons (.add 1 rfl rfl) (.cons (.add 2 rfl rfl) (.cons (.start _ 10) ?_))
    refine .cons (.send (by decide) rfl) (.cons (.receive rfl rfl) ?_)
    refine .cons (.send (by decide) rfl) (.cons (.unlock _ _ _) (.cons (.finish _ _) ?_))
    refine .cons (.start _ 20) (.cons (.skip (by decide) rfl) (.cons (.send (by decide) rfl) ?_))
    refine .cons (.unlock _ _ _) (.cons (.remove 1 rfl) (.cons (.drop _ _ _ _) ?_))
    exact .cons (.finish _ _) (.cons (.receive rfl rfl) .nil)
  obtain ⟨-, hproper, hsent⟩ := sent_in_order hruns
  have hgone : 1 ∉ w.hub.connected := by decide
  obtain ⟨c₂, hc₂, hstays, -⟩ := hsent [.add 1 1] 2 2 (crowded.drop 2) rfl
  obtain ⟨c₁, hc₁, -, hleaves⟩ := hsent [] 1 1 (crowded.drop 1) rfl
  obtain ⟨u, a, v, w₁, w₂, hacts, -, hin, hstep, hout, -, hleft⟩ := hleaves hgone
  refine ⟨w, hruns, hgone, ⟨c₂, hc₂, hproper 2 c₂ hc₂, hstays (by decide)⟩, ?_⟩
  exact ⟨c₁, u, a, v, w₁, w₂, hc₁, hacts, hin, hstep, hout, hleft⟩

/-! ## A message at a time -/

theorem isFull_update_of_ne (hne : id ≠ i) (f : Channel μ → Channel μ) :
    (h.update i f).isFull id = h.isFull id := by
  simp [isFull, channel?_update, hne]

def offerTo (h : Hub μ) (m : μ) (ids : List Nat) : Hub μ :=
  ids.foldl (fun h id => if h.isFull id then h else h.update id (·.send m)) h

theorem runs_serve (m : μ) {waiting : List Nat} (hnodup : waiting.Nodup) (h : Hub μ)
    (full : List Nat) :
    Runs ⟨h, .sending m waiting full⟩ (waiting.map .serve)
      ⟨h.offerTo m waiting, .sending m [] (full ++ waiting.filter h.isFull)⟩ := by
  induction waiting generalizing h full with
  | nil => simpa [offerTo] using Runs.nil
  | cons id waiting ih =>
      obtain ⟨hid, hnodup⟩ := List.nodup_cons.1 hnodup
      cases hfull : h.isFull id with
      | true =>
          have hstep : Step ⟨h, .sending m (id :: waiting) full⟩ (.serve id)
              ⟨h, .sending m waiting (full ++ [id])⟩ := by
            simpa using Step.skip (m := m) (List.mem_cons_self (a := id) (l := waiting)) hfull
          have hrest := ih hnodup h (full ++ [id])
          simp only [List.filter_cons, hfull, if_true, offerTo, List.foldl_cons]
          rw [List.append_assoc] at hrest
          exact .cons hstep hrest
      | false =>
          have hstep : Step ⟨h, .sending m (id :: waiting) full⟩ (.serve id)
              ⟨h.update id (·.send m), .sending m waiting full⟩ := by
            simpa using Step.send (m := m) (List.mem_cons_self (a := id) (l := waiting)) hfull
          have hrest := ih hnodup (h.update id (·.send m)) full
          have hsame : waiting.filter (h.update id (·.send m)).isFull = waiting.filter h.isFull :=
            List.filter_congr fun i hi => isFull_update_of_ne (ne_of_mem_of_not_mem hi hid) _
          simp only [List.filter_cons, hfull, Bool.false_eq_true, if_false, offerTo,
            List.foldl_cons]
          rw [hsame] at hrest
          exact .cons hstep hrest

theorem runs_drop (m : μ) (h : Hub μ) (full : List Nat) :
    Runs ⟨h, .dropping m full⟩ (full.map .drop) ⟨h.removeAll full, .dropping m []⟩ := by
  induction full generalizing h with
  | nil => exact .nil
  | cons id full ih => exact .cons (.drop h m id full) (ih (h.remove id))

theorem runs_broadcast (hh : h.Sound) (m : μ) :
    Runs ⟨h, .idle⟩
      (.start m :: (h.connected.map .serve ++ (Act.unlock :: (h.slow.map .drop ++ [Act.finish]))))
      ⟨h.broadcast m, .idle⟩ := by
  have hserve := runs_serve m hh.nodup h []
  have hdrop := runs_drop m (h.offer m) h.slow
  have hunlock := Step.unlock (h.offer m) m h.slow
  have hfinish := Step.finish (h.broadcast m) m
  exact .cons (.start h m) (hserve.append (.cons hunlock (hdrop.append (.cons hfinish .nil))))

theorem runs_receive (hh : h.Sound) (s : Stage μ) (hc : h.channel? id = some c) :
    Runs ⟨h, s⟩ (c.queue.map (.receive id)) ⟨h.update id (fun c => { c with queue := [] }), s⟩ := by
  generalize hq : c.queue = q
  induction q generalizing h c with
  | nil =>
      have hsame : h.update id (fun c => { c with queue := [] }) = h :=
        update_eq_self fun c' hc' => by
          obtain rfl : c = c' := Option.some.inj (hc.symm.trans (channel?_eq_some hh.ids hc'))
          rw [← hq]
      rw [hsame]
      exact .nil
  | cons m rest ih =>
      have hstep : Step ⟨h, s⟩ (.receive id m) ⟨h.update id takeFirst, s⟩ := .receive hc hq
      have htaken : (h.update id takeFirst).channel? id = some (takeFirst c) := by
        simp [channel?_update, hc]
      have hsound : (h.update id takeFirst).Sound := hh.update fun _ _ => ⟨rfl, rfl⟩
      have hrest := ih hsound htaken (by rw [takeFirst, hq, List.tail_cons])
      rw [update_update] at hrest
      exact .cons hstep hrest

theorem runs_drain (hh : h.Sound) (s : Stage μ) (id : Nat) :
    Runs ⟨h, s⟩ ((h.drain id).2.map (.receive id)) ⟨(h.drain id).1, s⟩ := by
  simp only [drain, Channel.drain]
  cases hc : h.channel? id with
  | none =>
      have hsame : h.update id (fun c => { c with queue := [] }) = h :=
        update_eq_self fun c' hc' => by
          rw [channel?_eq_some hh.ids hc'] at hc
          cases hc
      rw [hsame]
      exact .nil
  | some c => exact runs_receive hh s hc

end TagLoom.Hub

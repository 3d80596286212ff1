import TagLoom.Proofs.Inference.Evidence

/-!
# Spreading evidence comes to an end

A round over the handovers that finds nothing missing changes nothing, so as many rounds as evidence
is missing reach a state in which both ends of every handover are content or neither is.
-/

namespace TagLoom.Inference

/-- More evidence, or none was missing and nothing changes. -/
structure Spreads (slots slots' : Slots) : Prop where
  grows : slots.Grows slots'
  missing_le : missing slots' ≤ missing slots
  eq_of_missing : missing slots' = missing slots → slots' = slots

theorem Spreads.refl (slots : Slots) : Spreads slots slots :=
  ⟨Slots.Grows.refl slots, Nat.le_refl _, fun _ => rfl⟩

theorem Spreads.trans {a b c : Slots} (hab : Spreads a b) (hbc : Spreads b c) : Spreads a c := by
  refine ⟨hab.grows.trans hbc.grows, Nat.le_trans hbc.missing_le hab.missing_le, fun h => ?_⟩
  have hb := hab.missing_le
  have hc := hbc.missing_le
  rw [hbc.eq_of_missing (by omega), hab.eq_of_missing (by omega)]

/-- A change of a slot that adds evidence, or finds it there and changes nothing. -/
structure Fills (f : Slot → Slot) : Prop where
  adds : Slots.Adds f
  missing_le : ∀ s, missing [f s] ≤ missing [s]
  eq_of_missing : ∀ s, missing [f s] = missing [s] → f s = s

theorem fills_asContent (u : Use) : Fills (·.asContent u) := by
  refine ⟨Slot.le_asContent u, fun s => ?_, fun s h => ?_⟩
  · cases hs : s.content <;> simp [missing, Slot.asContent, hs]
  · obtain ⟨tag, file, param, content, value, scalar⟩ := s
    cases content with
    | none => simp [missing, Slot.asContent] at h
    | some v => rfl

theorem fills_asValue (u : Use) : Fills (·.asValue u) := by
  refine ⟨Slot.le_asValue u, fun s => ?_, fun s h => ?_⟩
  · cases hs : s.value <;> simp [missing, Slot.asValue, hs]
  · obtain ⟨tag, file, param, content, value, scalar⟩ := s
    cases value with
    | none => simp [missing, Slot.asValue] at h
    | some v => rfl

theorem missing_cons (s : Slot) (slots : Slots) :
    missing (s :: slots) = missing [s] + missing slots := by
  simp [missing]

theorem spreads_update {f : Slot → Slot} (hf : Fills f) (slots : Slots) (tag name : Bytes) :
    Spreads slots (slots.update tag name f) := by
  suffices h : missing (slots.update tag name f) ≤ missing slots ∧
      (missing (slots.update tag name f) = missing slots → slots.update tag name f = slots) from
    ⟨Slots.grows_update hf.adds slots tag name, h.1, h.2⟩
  induction slots with
  | nil => exact ⟨Nat.le_refl _, fun _ => rfl⟩
  | cons s slots ih =>
      obtain ⟨hle, heq⟩ := ih
      have hcons : Slots.update (s :: slots) tag name f =
          (if s.tag == tag && s.param.name == name then f s else s) ::
            Slots.update slots tag name f := rfl
      rw [hcons, missing_cons, missing_cons s]
      split
      · have hs := hf.missing_le s
        refine ⟨Nat.add_le_add hs hle, fun h => ?_⟩
        rw [hf.eq_of_missing s (by omega), heq (by omega)]
      · exact ⟨Nat.add_le_add_left hle _, fun h => by rw [heq (by omega)]⟩

def shareContent (slots : Slots) (h : Handover) : Slots :=
  if isContentAt slots h.callee && !isContentAt slots h.caller then
    slots.update h.caller.tag h.caller.name (·.asContent h.at_)
  else if isContentAt slots h.caller && !isContentAt slots h.callee then
    slots.update h.callee.tag h.callee.name (·.asContent h.at_)
  else slots

theorem spreads_shareContent (slots : Slots) (h : Handover) :
    Spreads slots (shareContent slots h) := by
  unfold shareContent
  split
  · exact spreads_update (fills_asContent h.at_) slots _ _
  · split
    · exact spreads_update (fills_asContent h.at_) slots _ _
    · exact Spreads.refl slots

theorem spreads_share_shareContent (slots : Slots) (h : Handover) :
    Spreads (shareContent slots h) (share slots h) := by
  have hshare : share slots h =
      if isValueAt (shareContent slots h) h.callee && !hasValueUse (shareContent slots h) h.caller
      then (shareContent slots h).update h.caller.tag h.caller.name (·.asValue h.at_)
      else shareContent slots h := rfl
  rw [hshare]
  split
  · exact spreads_update (fills_asValue h.at_) _ _ _
  · exact Spreads.refl _

theorem spreads_share (slots : Slots) (h : Handover) : Spreads slots (share slots h) :=
  (spreads_shareContent slots h).trans (spreads_share_shareContent slots h)

theorem spreads_shareAll (handovers : List Handover) (slots : Slots) :
    Spreads slots (shareAll handovers slots) :=
  (foldl_keeps (Q := fun _ _ => True) Spreads.refl Spreads.trans
    (fun s h => ⟨spreads_share s h, trivial⟩) (fun _ _ => trivial) handovers slots).1

theorem share_eq_of_missing {handovers : List Handover} {slots : Slots}
    (h : missing (shareAll handovers slots) = missing slots) :
    ∀ o ∈ handovers, share slots o = slots := by
  induction handovers with
  | nil => exact fun _ ho => (nomatch ho)
  | cons o handovers ih =>
      have hcons : shareAll (o :: handovers) slots = shareAll handovers (share slots o) := rfl
      have ho := spreads_share slots o
      have hrest := spreads_shareAll handovers (share slots o)
      rw [hcons] at h
      have hsame : share slots o = slots :=
        ho.eq_of_missing (by have := ho.missing_le; have := hrest.missing_le; omega)
      rw [hsame] at h
      exact List.forall_mem_cons.2 ⟨hsame, ih h⟩

theorem spreads_spread (handovers : List Handover) (fuel : Nat) (slots : Slots) :
    Spreads slots (spread handovers fuel slots) := by
  induction fuel generalizing slots with
  | zero => exact Spreads.refl slots
  | succ fuel ih =>
      rw [spread]
      split
      · exact Spreads.refl slots
      · exact (spreads_shareAll handovers slots).trans (ih _)

/-- More rounds than evidence is missing reach a state that a round does not change. -/
theorem missing_shareAll_spread (handovers : List Handover) (fuel : Nat) (slots : Slots)
    (h : missing slots < fuel) :
    missing (shareAll handovers (spread handovers fuel slots)) =
      missing (spread handovers fuel slots) := by
  induction fuel generalizing slots with
  | zero => exact absurd h (Nat.not_lt_zero _)
  | succ fuel ih =>
      rw [spread]
      split
      · rename_i hsame
        exact beq_iff_eq.1 hsame
      · rename_i hless
        have hle := (spreads_shareAll handovers slots).missing_le
        have hne : missing (shareAll handovers slots) ≠ missing slots := by simpa using hless
        exact ih _ (by omega)

/-! ## Both ends -/

theorem isContentAt_asContent {slots : Slots} {r : SlotRef} (u : Use)
    (h : slots.has r.tag r.name = true) :
    isContentAt (slots.update r.tag r.name (·.asContent u)) r = true := by
  obtain ⟨s, hs⟩ := Option.isSome_iff_exists.1 h
  rw [isContentAt, Slots.find?_update (Slot.le_asContent u), hs]
  simp [Slot.isContent, Slot.asContent]

/-- A handover over which content need not be shared has it on both ends or on none. -/
theorem isContentAt_eq_of_shareContent {slots : Slots} {h : Handover}
    (hcaller : slots.has h.caller.tag h.caller.name = true)
    (hcallee : slots.has h.callee.tag h.callee.name = true)
    (hshare : shareContent slots h = slots) :
    isContentAt slots h.caller = isContentAt slots h.callee := by
  unfold shareContent at hshare
  split at hshare
  · rename_i hcond
    have hat := isContentAt_asContent h.at_ hcaller
    rw [hshare] at hat
    simp [hat] at hcond
  · split at hshare
    · rename_i hcond
      have hat := isContentAt_asContent h.at_ hcallee
      rw [hshare] at hat
      simp [hat] at hcond
    · rename_i h₁ h₂
      revert h₁ h₂
      cases isContentAt slots h.caller <;> cases isContentAt slots h.callee <;> simp

theorem shareContent_eq_of_share {slots : Slots} {h : Handover} (hshare : share slots h = slots) :
    shareContent slots h = slots := by
  refine (spreads_shareContent slots h).eq_of_missing ?_
  have hcontent := (spreads_shareContent slots h).missing_le
  have hvalue := (spreads_share_shareContent slots h).missing_le
  rw [hshare] at hvalue
  omega

theorem isContentAt_spread {handovers : List Handover} {slots : Slots}
    (hknown : Known (slots, handovers)) :
    ∀ h ∈ handovers, isContentAt (spread handovers (missing slots + 1) slots) h.caller =
      isContentAt (spread handovers (missing slots + 1) slots) h.callee := by
  intro h hh
  have hspread := spreads_spread handovers (missing slots + 1) slots
  have hround := share_eq_of_missing
    (missing_shareAll_spread handovers (missing slots + 1) slots (Nat.lt_succ_self _)) h hh
  obtain ⟨hcaller, hcallee⟩ := hknown h hh
  exact isContentAt_eq_of_shareContent (hspread.grows.below.has hcaller)
    (hspread.grows.below.has hcallee) (shareContent_eq_of_share hround)

end TagLoom.Inference

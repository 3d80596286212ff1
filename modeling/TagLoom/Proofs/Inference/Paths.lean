import Mathlib.Logic.Function.Iterate
import Mathlib.Logic.Relation
import TagLoom.Proofs.Inference.Soundness

/-!
# Where evidence spreads to

Rounds over the handovers come to the least slots that no round changes, in whatever order the
handovers stand.  There a parameter is content when handovers, followed in either direction, connect
it to one that a block was bound to or that is declared so, and evidence of a value has come from a
parameter to all those that are handed on to it, over any number of tags.
-/

namespace TagLoom.Inference

open Node (Inside)
open Relation (ReflTransGen TransGen)

def HandsTo (handovers : List Handover) (r s : SlotRef) : Prop :=
  ∃ h ∈ handovers, h.caller = r ∧ h.callee = s

def Linked (handovers : List Handover) (r s : SlotRef) : Prop :=
  HandsTo handovers r s ∨ HandsTo handovers s r

/-- A declaration gives a parameter its type. -/
def DeclaredAs (slots : Slots) (type : ParamType) (r : SlotRef) : Prop :=
  slots.At r.tag r.name fun s => s.param.explicit = true ∧ s.param.type = type

def ContentAt (slots : Slots) (r : SlotRef) : Prop := slots.At r.tag r.name HasContent

def ValueAt (slots : Slots) (r : SlotRef) : Prop := slots.At r.tag r.name HasValue

variable {slots slots' before : Slots} {handovers : List Handover} {h : Handover} {r s : SlotRef}

/-! ## Evidence of one parameter -/

theorem Slots.at_or {tag name : Bytes} {P Q : Slot → Prop} :
    slots.At tag name (fun s => P s ∨ Q s) ↔ slots.At tag name P ∨ slots.At tag name Q := by
  constructor
  · rintro ⟨s, hs, hp | hq⟩
    · exact .inl ⟨s, hs, hp⟩
    · exact .inr ⟨s, hs, hq⟩
  · rintro (⟨s, hs, hp⟩ | ⟨s, hs, hq⟩)
    · exact ⟨s, hs, .inl hp⟩
    · exact ⟨s, hs, .inr hq⟩

theorem Slots.at_iff_find? {tag name : Bytes} {p : Slot → Bool} :
    ((slots.find? tag name).map p).getD false = true ↔ slots.At tag name fun s => p s = true := by
  cases hs : slots.find? tag name <;> simp [Slots.At, hs]

theorem isContentAt_iff :
    isContentAt slots r = true ↔ ContentAt slots r ∨ DeclaredAs slots .content r := by
  rw [isContentAt, Slots.at_iff_find?, ContentAt, DeclaredAs, ← Slots.at_or]
  simp only [Slot.isContent, HasContent, Bool.or_eq_true, Bool.and_eq_true, beq_iff_eq]

theorem isValueAt_iff : isValueAt slots r = true ↔ ValueAt slots r ∨ DeclaredAs slots .value r := by
  rw [isValueAt, Slots.at_iff_find?, ValueAt, DeclaredAs, ← Slots.at_or]
  simp only [Slot.isValue, HasValue, Bool.or_eq_true, Bool.and_eq_true, beq_iff_eq]

theorem hasValueUse_iff : hasValueUse slots r = true ↔ ValueAt slots r :=
  Slots.at_iff_find?

theorem Slots.at_update_iff {f : Slot → Slot} (hf : Slots.Adds f) {tag name tag' name' : Bytes}
    {P : Slot → Prop} : (slots.update tag name f).At tag' name' P ↔
      slots.At tag' name' fun s => P (if tag' = tag ∧ name' = name then f s else s) := by
  simp only [Slots.At, Slots.find?_update hf, Option.map_eq_some_iff]
  constructor
  · rintro ⟨_, ⟨s, hs, rfl⟩, hp⟩
    exact ⟨s, hs, hp⟩
  · rintro ⟨s, hs, hp⟩
    exact ⟨_, ⟨s, hs, rfl⟩, hp⟩

theorem contentAt_asContent {u : Use} {tag name : Bytes}
    (h : ContentAt (slots.update tag name (·.asContent u)) r) :
    ContentAt slots r ∨ r = ⟨tag, name⟩ := by
  rw [ContentAt, Slots.at_update_iff (Slot.le_asContent u)] at h
  by_cases hr : r.tag = tag ∧ r.name = name
  · obtain ⟨rfl, rfl⟩ := hr
    exact .inr rfl
  · simp only [hr, if_false] at h
    exact .inl h

theorem valueAt_asValue {u : Use} {tag name : Bytes}
    (h : ValueAt (slots.update tag name (·.asValue u)) r) : ValueAt slots r ∨ r = ⟨tag, name⟩ := by
  rw [ValueAt, Slots.at_update_iff (Slot.le_asValue u)] at h
  by_cases hr : r.tag = tag ∧ r.name = name
  · obtain ⟨rfl, rfl⟩ := hr
    exact .inr rfl
  · simp only [hr, if_false] at h
    exact .inl h

theorem contentAt_update {f : Slot → Slot} (hf : Slots.Adds f)
    (hcontent : ∀ s, (f s).content = s.content) {tag name : Bytes} :
    ContentAt (slots.update tag name f) r ↔ ContentAt slots r := by
  have hsame (s : Slot) :
      HasContent (if r.tag = tag ∧ r.name = name then f s else s) ↔ HasContent s := by
    split <;> simp [HasContent, hcontent]
  simp only [ContentAt, Slots.at_update_iff hf, hsame]

theorem valueAt_asContent {u : Use} {tag name : Bytes} :
    ValueAt (slots.update tag name (·.asContent u)) r ↔ ValueAt slots r := by
  have hsame (s : Slot) :
      HasValue (if r.tag = tag ∧ r.name = name then s.asContent u else s) ↔ HasValue s := by
    split <;> rfl
  simp only [ValueAt, Slots.at_update_iff (Slot.le_asContent u), hsame]

theorem Slots.Grows.declaredAs (hgrows : slots.Grows slots') {type : ParamType} :
    DeclaredAs slots' type r ↔ DeclaredAs slots type r := by
  constructor
  · rintro ⟨t, ht, hdeclared⟩
    have hhas : slots.has r.tag r.name = true := by
      rw [← Slots.has_congr hgrows.keys, Slots.has, ht]
      rfl
    obtain ⟨s, hs⟩ := Option.isSome_iff_exists.1 hhas
    obtain ⟨t', ht', hle⟩ := hgrows.below _ _ s hs
    obtain rfl : t' = t := Option.some.inj (ht'.symm.trans ht)
    rw [hle.param] at hdeclared
    exact ⟨s, hs, hdeclared⟩
  · rintro ⟨s, hs, hdeclared⟩
    obtain ⟨t, ht, hle⟩ := hgrows.below _ _ s hs
    rw [← hle.param] at hdeclared
    exact ⟨t, ht, hdeclared⟩

/-! ## What one handover brings -/

theorem valueAt_shareContent : ValueAt (shareContent slots h) r ↔ ValueAt slots r := by
  unfold shareContent
  split
  · exact valueAt_asContent
  · split
    · exact valueAt_asContent
    · rfl

theorem isValueAt_shareContent :
    isValueAt (shareContent slots h) r = true ↔ isValueAt slots r = true := by
  rw [isValueAt_iff, isValueAt_iff, valueAt_shareContent,
    (spreads_shareContent slots h).grows.declaredAs]

theorem share_eq (slots : Slots) (h : Handover) :
    share slots h =
      if isValueAt (shareContent slots h) h.callee && !hasValueUse (shareContent slots h) h.caller
      then (shareContent slots h).update h.caller.tag h.caller.name (·.asValue h.at_)
      else shareContent slots h := rfl

theorem contentAt_share (hr : ContentAt (share slots h) r) :
    ContentAt slots r ∨ (r = h.caller ∧ isContentAt slots h.callee = true) ∨
      (r = h.callee ∧ isContentAt slots h.caller = true) := by
  have hshare : ContentAt (shareContent slots h) r := by
    rw [share_eq] at hr
    split at hr
    · exact (contentAt_update (Slot.le_asValue h.at_) fun _ => rfl).1 hr
    · exact hr
  unfold shareContent at hshare
  split at hshare
  · rename_i hcallee
    rw [Bool.and_eq_true] at hcallee
    exact (contentAt_asContent hshare).imp_right fun hr => .inl ⟨hr, hcallee.1⟩
  · split at hshare
    · rename_i hcaller
      rw [Bool.and_eq_true] at hcaller
      exact (contentAt_asContent hshare).imp_right fun hr => .inr ⟨hr, hcaller.1⟩
    · exact .inl hshare

theorem valueAt_share (hr : ValueAt (share slots h) r) :
    ValueAt slots r ∨ (r = h.caller ∧ isValueAt slots h.callee = true) := by
  rw [share_eq] at hr
  split at hr
  · rename_i hcallee
    rw [Bool.and_eq_true] at hcallee
    exact (valueAt_asValue hr).imp valueAt_shareContent.1
      fun hr => ⟨hr, isValueAt_shareContent.1 hcallee.1⟩
  · exact .inl (valueAt_shareContent.1 hr)

/-! ## Nothing comes from nowhere -/

/-- Slots whose evidence has come over handovers from the evidence before. -/
structure Stems (handovers : List Handover) (before slots : Slots) : Prop where
  grows : before.Grows slots
  content : ∀ r, isContentAt slots r = true →
    ∃ s, ReflTransGen (Linked handovers) r s ∧ isContentAt before s = true
  value : ∀ r, ValueAt slots r → ValueAt before r ∨
    ∃ s, TransGen (HandsTo handovers) r s ∧ isValueAt before s = true

theorem Stems.refl (handovers : List Handover) (before : Slots) : Stems handovers before before :=
  ⟨Slots.Grows.refl before, fun r hr => ⟨r, .refl, hr⟩, fun _ hr => .inl hr⟩

theorem Stems.share (hstems : Stems handovers before slots) (hh : h ∈ handovers) :
    Stems handovers before (share slots h) := by
  have hgrows := (spreads_share slots h).grows
  have hhands : HandsTo handovers h.caller h.callee := ⟨h, hh, rfl, rfl⟩
  refine ⟨hstems.grows.trans hgrows, fun r hr => ?_, fun r hr => ?_⟩
  · rcases isContentAt_iff.1 hr with hcontent | hdeclared
    · rcases contentAt_share hcontent with hold | ⟨rfl, hcallee⟩ | ⟨rfl, hcaller⟩
      · exact hstems.content r (isContentAt_iff.2 (.inl hold))
      · obtain ⟨s, hpath, hs⟩ := hstems.content _ hcallee
        exact ⟨s, hpath.head (.inl hhands), hs⟩
      · obtain ⟨s, hpath, hs⟩ := hstems.content _ hcaller
        exact ⟨s, hpath.head (.inr hhands), hs⟩
    · exact hstems.content r (isContentAt_iff.2 (.inr (hgrows.declaredAs.1 hdeclared)))
  · rcases valueAt_share hr with hold | ⟨rfl, hcallee⟩
    · exact hstems.value r hold
    · right
      rcases isValueAt_iff.1 hcallee with hvalue | hdeclared
      · rcases hstems.value _ hvalue with hbefore | ⟨s, hpath, hs⟩
        · exact ⟨_, .single hhands, isValueAt_iff.2 (.inl hbefore)⟩
        · exact ⟨s, .head hhands hpath, hs⟩
      · exact ⟨_, .single hhands,
          isValueAt_iff.2 (.inr (hstems.grows.declaredAs.1 hdeclared))⟩

theorem Stems.shareAll (hstems : Stems handovers before slots) :
    Stems handovers before (shareAll handovers slots) :=
  List.foldlRecOn handovers Inference.share hstems fun _ hstems _ hh => hstems.share hh

theorem Stems.spread (hstems : Stems handovers before slots) (fuel : Nat) :
    Stems handovers before (spread handovers fuel slots) := by
  induction fuel generalizing slots with
  | zero => exact hstems
  | succ fuel ih =>
      rw [Inference.spread]
      split
      · exact hstems
      · exact ih hstems.shareAll

/-! ## Rounds come to an end -/

theorem iterate_spread (handovers : List Handover) (fuel : Nat) (slots : Slots) :
    ∃ n, spread handovers fuel slots = (shareAll handovers)^[n] slots ∧
      ∀ k < n, missing ((shareAll handovers)^[k + 1] slots) <
        missing ((shareAll handovers)^[k] slots) := by
  induction fuel generalizing slots with
  | zero => exact ⟨0, rfl, fun k hk => absurd hk (Nat.not_lt_zero k)⟩
  | succ fuel ih =>
      rw [spread]
      split
      · exact ⟨0, rfl, fun k hk => absurd hk (Nat.not_lt_zero k)⟩
      · rename_i hbrings
        obtain ⟨n, hn, hbefore⟩ := ih (shareAll handovers slots)
        refine ⟨n + 1, by rw [hn, Function.iterate_succ_apply], fun k hk => ?_⟩
        cases k with
        | zero =>
            have hle := (spreads_shareAll handovers slots).missing_le
            have hne : missing (shareAll handovers slots) ≠ missing slots := by simpa using hbrings
            exact Nat.lt_of_le_of_ne hle hne
        | succ k => exact hbefore k (Nat.lt_of_succ_lt_succ hk)

theorem shareAll_spread (handovers : List Handover) (slots : Slots) :
    shareAll handovers (spread handovers (missing slots + 1) slots) =
      spread handovers (missing slots + 1) slots :=
  (spreads_shareAll handovers _).eq_of_missing
    (missing_shareAll_spread handovers _ slots (Nat.lt_succ_self _))

/-! ## What no round changes -/

section Settled

variable (hknown : Known (slots, handovers)) (hround : shareAll handovers slots = slots)

include hround in
theorem share_eq_of_round (hh : h ∈ handovers) : share slots h = slots :=
  share_eq_of_missing (congrArg missing hround) h hh

include hknown hround

theorem isContentAt_of_linked (hlinked : Linked handovers r s) (hs : isContentAt slots s = true) :
    isContentAt slots r = true := by
  have hends (h : Handover) (hh : h ∈ handovers) :
      isContentAt slots h.caller = isContentAt slots h.callee :=
    isContentAt_eq_of_shareContent (hknown h hh).1 (hknown h hh).2
      (shareContent_eq_of_share (share_eq_of_round hround hh))
  rcases hlinked with ⟨h, hh, rfl, rfl⟩ | ⟨h, hh, rfl, rfl⟩
  · rw [hends h hh, hs]
  · rw [← hends h hh, hs]

theorem isContentAt_of_path (hpath : ReflTransGen (Linked handovers) r s)
    (hs : isContentAt slots s = true) : isContentAt slots r = true := by
  induction hpath using ReflTransGen.head_induction_on with
  | refl => exact hs
  | head hlinked _ ih => exact isContentAt_of_linked hknown hround hlinked ih

theorem valueAt_of_handsTo (hhands : HandsTo handovers r s) (hs : isValueAt slots s = true) :
    ValueAt slots r := by
  obtain ⟨h, hh, rfl, rfl⟩ := hhands
  have hshare := share_eq_of_round hround hh
  have heq := share_eq slots h
  rw [hshare, shareContent_eq_of_share hshare, hs, Bool.true_and] at heq
  cases huse : hasValueUse slots h.caller with
  | true => exact hasValueUse_iff.1 huse
  | false =>
      rw [huse, if_pos (by rfl)] at heq
      rw [ValueAt, heq]
      exact Slots.at_update (Slot.le_asValue h.at_) (hknown h hh).1 (Slot.value_asValue h.at_)

theorem valueAt_of_path (hpath : TransGen (HandsTo handovers) r s) (hs : isValueAt slots s = true) :
    ValueAt slots r := by
  induction hpath using TransGen.head_induction_on with
  | single hhands => exact valueAt_of_handsTo hknown hround hhands hs
  | head hhands _ ih =>
      exact valueAt_of_handsTo hknown hround hhands (isValueAt_iff.2 (.inl ih))

end Settled

theorem Slots.Grows.isContentAt (hgrows : slots.Grows slots') (hr : isContentAt slots r = true) :
    isContentAt slots' r = true :=
  isContentAt_iff.2 ((isContentAt_iff.1 hr).imp (fun h => h.below hgrows.below hasContent_mono)
    hgrows.declaredAs.2)

theorem Slots.Grows.valueAt (hgrows : slots.Grows slots') (hr : ValueAt slots r) :
    ValueAt slots' r :=
  Slots.At.below hr hgrows.below hasValue_mono

theorem Slots.Grows.isValueAt (hgrows : slots.Grows slots') (hr : isValueAt slots r = true) :
    isValueAt slots' r = true :=
  isValueAt_iff.2 ((isValueAt_iff.1 hr).imp hgrows.valueAt hgrows.declaredAs.2)

end TagLoom.Inference

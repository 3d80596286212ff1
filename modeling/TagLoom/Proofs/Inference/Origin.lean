import TagLoom.Proofs.Inference.Paths

/-!
# Where evidence comes from

Before evidence is spread, a parameter is content only where a call binds a block to it, and a
handover is a call that hands a parameter of the tag around it on under a bare name.  With that,
what spreading ends in is told by the bodies of the tags.
-/

namespace TagLoom.Inference

open Node (Inside)
open Relation (ReflTransGen TransGen)

/-- A tag of a set has a parameter, declared or read by its body. -/
def IsParam (set : TagSet) (r : SlotRef) : Prop := (gathered set).1.has r.tag r.name = true

/-- A call of a tag binds a block to a parameter of it. -/
def BoundToBlock (set : TagSet) (r : SlotRef) : Prop :=
  IsParam set r ∧ Name.isBuiltin r.tag = false ∧ ∃ d ∈ set.defs, ∃ scope pos args q body,
    Inside [] d.body scope (.invocation pos r.tag args) ∧ .content q r.name body ∈ args

/-- A call of a tag hands a parameter of the tag it stands in on to a parameter of the tag it
calls. -/
def PassesOn (set : TagSet) (r s : SlotRef) : Prop :=
  IsParam set r ∧ IsParam set s ∧ Name.isBuiltin s.tag = false ∧
    ∃ d ∈ set.defs, d.name = r.tag ∧ ∃ scope pos args q e,
      Inside [] d.body scope (.invocation pos s.tag args) ∧ .expr q s.name e ∈ args ∧
        e.isBare = true ∧ e.source = r.name ∧ r.name ∉ scope

variable {set : TagSet} {handovers : List Handover} {r s : SlotRef}

/-! ## Evidence before it is spread -/

theorem content_collect (d : Definition) : ∀ s ∈ collect d, s.content = none := by
  have hupdate {f : Slot → Slot} (hf : ∀ s, (f s).content = s.content) {slots : Slots}
      (tag name : Bytes) (h : ∀ s ∈ slots, s.content = none) :
      ∀ s ∈ slots.update tag name f, s.content = none := by
    intro t ht
    obtain ⟨s, hs, rfl⟩ := List.mem_map.1 ht
    split
    · rw [hf, h s hs]
    · exact h s hs
  have hname (r : Read) (slots : Slots) (name : Bytes) (h : ∀ s ∈ slots, s.content = none) :
      ∀ s ∈ recordName d r slots name, s.content = none := by
    unfold recordName
    extract_lets known at_
    have hknown : ∀ s ∈ known, s.content = none := by
      simp only [known]
      split
      · exact h
      · exact List.forall_mem_append.2 ⟨h, fun s hs => by rw [List.mem_singleton.1 hs]⟩
    cases r.mode with
    | structural => exact hupdate (f := (·.asValue at_)) (fun _ => rfl) _ _ hknown
    | scalar => exact hupdate (f := (·.asScalar at_)) (fun _ => rfl) _ _ hknown
    | render => exact hknown
    | passThrough => exact hknown
  refine List.foldlRecOn (bodyReads [] d.body) (recordRead d) ?_ fun slots hslots r _ =>
    List.foldlRecOn r.names (recordName d r) hslots fun slots hslots name _ =>
      hname r slots name hslots
  intro s hs
  obtain ⟨decl, -, rfl⟩ := List.mem_map.1 hs
  rfl

/-- Evidence and handovers that calls of the tags of a set account for. -/
structure Sourced (set : TagSet) (acc : Slots × List Handover) : Prop where
  keys : acc.1.keys = (gathered set).1.keys
  content : ∀ r, ContentAt acc.1 r → BoundToBlock set r
  handovers : ∀ h ∈ acc.2, PassesOn set h.caller h.callee

theorem Sourced.isParam {acc : Slots × List Handover} (hacc : Sourced set acc)
    (h : acc.1.has r.tag r.name = true) : IsParam set r :=
  (Slots.has_congr hacc.keys r.tag r.name).symm.trans h

theorem Sourced.update {acc : Slots × List Handover} (hacc : Sourced set acc) {f : Slot → Slot}
    (hf : Slots.Adds f) (hcontent : ∀ s, (f s).content = s.content) (tag name : Bytes) :
    Sourced set (acc.1.update tag name f, acc.2) :=
  ⟨(Slots.keys_update hf acc.1 tag name).trans hacc.keys,
    fun r hr => hacc.content r ((contentAt_update hf hcontent).1 hr), hacc.handovers⟩

theorem sourced_bindArg {acc : Slots × List Handover} (hacc : Sourced set acc) {d : Definition}
    (hd : d ∈ set.defs) {site : CallSite} (hsite : site ∈ callSites d) {a : Arg}
    (ha : a ∈ site.args) : Sourced set (bindArg site acc a) := by
  obtain ⟨⟨hcaller, -⟩, hinside⟩ := inside_of_bodyCalls [] d.body hsite
  obtain ⟨slots, handovers⟩ := acc
  have hscalar (tag name : Bytes) (u : Use) :
      Sourced set (slots.update tag name (·.asScalar u), handovers) :=
    hacc.update (Slot.le_asScalar u) (fun _ => rfl) tag name
  simp only [bindArg]
  split
  · split
    · exact hscalar _ _ _
    · exact hacc
  · rename_i huser
    have huser : Name.isBuiltin site.name = false := by simpa using huser
    split
    · exact hacc
    · rename_i hknown
      have hcallee : IsParam set ⟨site.name, a.name⟩ := hacc.isParam (by simpa using hknown)
      split
      · rename_i hblock
        have hf : Slots.Adds (·.asContent ⟨site.file, a.pos⟩) := Slot.le_asContent _
        refine ⟨(Slots.keys_update hf slots _ _).trans hacc.keys, fun r hr => ?_, hacc.handovers⟩
        rcases contentAt_asContent hr with hold | rfl
        · exact hacc.content r hold
        · cases a with
          | content q name body =>
              exact ⟨hcallee, huser, d, hd, site.scope, site.pos, site.args, q, body, hinside, ha⟩
          | text q name parts => cases hblock
          | expr q name e => cases hblock
      · split
        · rename_i r hr
          have hcallerParam : IsParam set r := hacc.isParam (handedOn_has hr)
          obtain ⟨q, name, e, rfl, hbare, hscope, rfl⟩ := handedOn_eq_some hr
          refine ⟨hacc.keys, hacc.content,
            List.forall_mem_append.2 ⟨hacc.handovers, fun h hh => ?_⟩⟩
          rw [List.mem_singleton.1 hh]
          exact ⟨hcallerParam, hcallee, huser, d, hd, hcaller.symm, site.scope, site.pos, site.args,
            q, e, hinside, ha, hbare, rfl, hscope⟩
        · exact hscalar _ _ _

theorem sourced_gathered (set : TagSet) : Sourced set (gathered set) := by
  have hstart : Sourced set (set.defs.flatMap collect, []) := by
    refine ⟨(binds_gathered set).grows.keys.symm, ?_, fun _ hh => (nomatch hh)⟩
    rintro r ⟨s, hs, hcontent⟩
    obtain ⟨d, -, hsd⟩ := List.mem_flatMap.1 (List.mem_of_find?_eq_some hs)
    rw [HasContent, content_collect d s hsd] at hcontent
    cases hcontent
  refine List.foldlRecOn (set.defs.flatMap callSites) bindCall hstart fun acc hacc site hsite => ?_
  obtain ⟨d, hd, hsite⟩ := List.mem_flatMap.1 hsite
  exact List.foldlRecOn site.args (bindArg site) hacc fun acc hacc a ha =>
    sourced_bindArg hacc hd hsite ha

theorem given_gathered {d : Definition} (hd : d ∈ set.defs) {site : CallSite}
    (hsite : site ∈ callSites d) {a : Arg} (ha : a ∈ site.args) : Given site a (gathered set) :=
  (bindCalls_given (set.defs.flatMap callSites) _).2 site (List.mem_flatMap.2 ⟨d, hd, hsite⟩) a ha

theorem contentAt_gathered_iff : ContentAt (gathered set).1 r ↔ BoundToBlock set r := by
  refine ⟨(sourced_gathered set).content r, ?_⟩
  rintro ⟨hparam, huser, d, hd, scope, pos, args, q, body, hinside, ha⟩
  exact ((given_gathered hd (call_of_inside hinside) ha).content huser hparam rfl).at

theorem handsTo_gathered_iff : HandsTo (gathered set).2 r s ↔ PassesOn set r s := by
  constructor
  · rintro ⟨h, hh, rfl, rfl⟩
    exact (sourced_gathered set).handovers h hh
  · obtain ⟨tag, name⟩ := r
    rintro ⟨hcaller, hcallee, huser, d, hd, rfl, scope, pos, args, q, e, hinside, ha, hbare, hname,
      hscope⟩
    subst hname
    have hhanded : handedOn (gathered set).1 ⟨d.name, d.file, scope, pos, s.tag, args⟩
        (.expr q s.name e) = some ⟨d.name, e.source⟩ := by
      have hhas : (gathered set).1.has d.name e.source = true := hcaller
      simp only [handedOn, hbare, hhas, Bool.and_true, Bool.true_and]
      simpa using hscope
    exact (given_gathered hd (call_of_inside hinside) ha).handover huser hcallee _ hhanded

/-! ## Spread evidence -/

/-- The type of a parameter: content wins, then a declared type, then a value. -/
def settledType (slots : Slots) (r : SlotRef) (p : Param) : ParamType :=
  if isContentAt slots r then .content
  else if p.explicit then p.type
  else if hasValueUse slots r then .value
  else .text

theorem typeOf_eq_settledType {slots : Slots} {s : Slot}
    (hs : slots.find? r.tag r.name = some s) : typeOf s = settledType slots r s.param := by
  simp only [typeOf, settledType, isContentAt, hasValueUse, hs, Option.map_some, Option.getD_some]

theorem settledType_congr {slots slots' : Slots} (p : Param)
    (hcontent : isContentAt slots r = true ↔ isContentAt slots' r = true)
    (hvalue : ValueAt slots r ↔ ValueAt slots' r) :
    settledType slots r p = settledType slots' r p := by
  rw [← hasValueUse_iff, ← hasValueUse_iff] at hvalue
  rw [settledType, settledType, Bool.eq_iff_iff.2 hcontent, Bool.eq_iff_iff.2 hvalue]

section Order

variable (horder : handovers.Perm (gathered set).2)

include horder

theorem handsTo_iff_passesOn : HandsTo handovers r s ↔ PassesOn set r s := by
  rw [← handsTo_gathered_iff]
  exact exists_congr fun h => and_congr_left' horder.mem_iff

theorem known_gathered {slots : Slots} (hgrows : (gathered set).1.Grows slots) :
    Known (slots, handovers) := by
  have hknown : Known (gathered set) := (binds_gathered set).known fun _ ho => (nomatch ho)
  intro h hh
  obtain ⟨hcaller, hcallee⟩ := hknown h (horder.mem_iff.1 hh)
  exact ⟨hgrows.below.has hcaller, hgrows.below.has hcallee⟩

theorem isContentAt_spread_iff :
    isContentAt (spread handovers (missing (gathered set).1 + 1) (gathered set).1) r = true ↔
      ∃ s, ReflTransGen (fun r s => PassesOn set r s ∨ PassesOn set s r) r s ∧
        (BoundToBlock set s ∨ DeclaredAs (gathered set).1 .content s) := by
  have hlinked : (fun r s => PassesOn set r s ∨ PassesOn set s r) = Linked handovers := by
    funext r s
    rw [Linked, handsTo_iff_passesOn horder, handsTo_iff_passesOn horder]
  have hstems := (Stems.refl handovers (gathered set).1).spread (missing (gathered set).1 + 1)
  simp only [hlinked, ← contentAt_gathered_iff, ← isContentAt_iff]
  refine ⟨hstems.content r, ?_⟩
  rintro ⟨s, hpath, hs⟩
  exact isContentAt_of_path (known_gathered horder hstems.grows) (shareAll_spread _ _) hpath
    (hstems.grows.isContentAt hs)

theorem valueAt_spread_iff :
    ValueAt (spread handovers (missing (gathered set).1 + 1) (gathered set).1) r ↔
      ValueAt (gathered set).1 r ∨ ∃ s, TransGen (PassesOn set) r s ∧
        (ValueAt (gathered set).1 s ∨ DeclaredAs (gathered set).1 .value s) := by
  have hhands : PassesOn set = HandsTo handovers := by
    funext r s
    rw [handsTo_iff_passesOn horder]
  have hstems := (Stems.refl handovers (gathered set).1).spread (missing (gathered set).1 + 1)
  simp only [hhands, ← isValueAt_iff]
  refine ⟨hstems.value r, ?_⟩
  rintro (hr | ⟨s, hpath, hs⟩)
  · exact hstems.grows.valueAt hr
  · exact valueAt_of_path (known_gathered horder hstems.grows) (shareAll_spread _ _) hpath
      (hstems.grows.isValueAt hs)

end Order

theorem param?_infer {tag : Bytes} (htag : tag ∈ set.names) (name : Bytes) :
    (Signature.find? (infer set).1 tag).bind (·.param? name) =
      ((gathered set).1.find? tag name).map fun s =>
        { s.param with type := settledType (evidence set) ⟨tag, name⟩ s.param } := by
  rw [find?_infer htag, Option.bind_some, param?_signatureOf]
  have hgrows := grows_evidence set
  cases hs : (gathered set).1.find? tag name with
  | some s =>
      obtain ⟨t, ht, hle⟩ := hgrows.below tag name s hs
      have htype := typeOf_eq_settledType (r := ⟨tag, name⟩) ht
      rw [ht, Option.map_some, Option.map_some, htype, hle.param]
  | none =>
      have hhas : (evidence set).has tag name = false := by
        rw [Slots.has_congr hgrows.keys, Slots.has, hs]
        rfl
      have hnone : (evidence set).find? tag name = none := by simpa [Slots.has] using hhas
      rw [hnone, Option.map_none, Option.map_none]

/-- Rounds over the handovers of a set, taken in any order, end in the least slots with the evidence
before that no round changes, and these are the slots the types come from. -/
theorem spread_least (set : TagSet) (handovers : List Handover)
    (horder : handovers.Perm (gathered set).2) :
    let before := (gathered set).1
    let after := spread handovers (missing before + 1) before
    (∃ n, after = (shareAll handovers)^[n] before ∧ ∀ k < n,
      missing ((shareAll handovers)^[k + 1] before) < missing ((shareAll handovers)^[k] before)) ∧
    shareAll handovers after = after ∧
    (∀ slots, before.Grows slots → shareAll handovers slots = slots → ∀ r,
      (isContentAt after r = true → isContentAt slots r = true) ∧
        (ValueAt after r → ValueAt slots r)) ∧
    (∀ r, isContentAt after r = true ↔
      ∃ s, ReflTransGen (fun r s => PassesOn set r s ∨ PassesOn set s r) r s ∧
        (BoundToBlock set s ∨ DeclaredAs before .content s)) ∧
    (∀ r, ValueAt after r ↔ ValueAt before r ∨
      ∃ s, TransGen (PassesOn set) r s ∧ (ValueAt before s ∨ DeclaredAs before .value s)) ∧
    (∀ tag ∈ set.names, ∀ name,
      (Signature.find? (infer set).1 tag).bind (·.param? name) =
        (before.find? tag name).map fun s =>
          { s.param with type := settledType after ⟨tag, name⟩ s.param }) := by
  intro before after
  have hstems : Stems handovers before after := (Stems.refl handovers before).spread _
  refine ⟨iterate_spread handovers _ before, shareAll_spread handovers before, ?least,
    fun r => isContentAt_spread_iff horder, fun r => valueAt_spread_iff horder, ?types⟩
  case least =>
    intro slots hgrows hround r
    have hknown : Known (slots, handovers) := known_gathered horder hgrows
    constructor
    · intro hr
      obtain ⟨s, hpath, hs⟩ := hstems.content r hr
      exact isContentAt_of_path hknown hround hpath (hgrows.isContentAt hs)
    · intro hr
      rcases hstems.value r hr with hbefore | ⟨s, hpath, hs⟩
      · exact hgrows.valueAt hbefore
      · exact valueAt_of_path hknown hround hpath (hgrows.isValueAt hs)
  case types =>
    intro tag htag name
    have hsettled (p : Param) :
        settledType (evidence set) ⟨tag, name⟩ p = settledType after ⟨tag, name⟩ p := by
      rw [evidence_eq]
      apply settledType_congr
      · rw [isContentAt_spread_iff (.refl _), isContentAt_spread_iff horder]
      · rw [valueAt_spread_iff (.refl _), valueAt_spread_iff horder]
    rw [param?_infer htag]
    simp only [hsettled]
    rfl

/-- A card that shows its body under its head, a page that hands both on to it, and a call of the
page with a block. -/
def titledPage : Template :=
  ⟨"a", "a.html", [
    ⟨"a", true, .start, [],
      [.invocation .start "Page" [.text .start "title" [.literal .start "hi"],
        .content .start "body" [.literal .start "hi"]]], "a.html", "a"⟩,
    ⟨"Page", false, .start, [],
      [.invocation .start "Card" [.expr .start "inner" ⟨"body", .name 0 "body"⟩,
        .expr .start "head" ⟨"title", .name 0 "title"⟩]], "a.html", "a"⟩,
    ⟨"Card", false, .start, [],
      [.interpolation .start ⟨"inner", .name 0 "inner"⟩ none,
        .cond .start ⟨"head", .name 0 "head"⟩ [.literal .start "hi"] none], "a.html", "a"⟩]⟩

theorem spread_least_titledPage :
    let set := (TagSet.build [titledPage]).1
    let handovers := (gathered set).2.reverse
    let after := spread handovers (missing (gathered set).1 + 1) (gathered set).1
    handovers.Perm (gathered set).2 ∧
      isContentAt after ⟨"Card", "inner"⟩ = true ∧ ValueAt after ⟨"Page", "title"⟩ := by
  intro set handovers after
  have horder : handovers.Perm (gathered set).2 := List.reverse_perm _
  have hset : set = (TagSet.build [titledPage]).1 := rfl
  have hhandovers : (gathered set).2 =
      [⟨⟨"Page", "body"⟩, ⟨"Card", "inner"⟩, ⟨"a.html", .start⟩⟩,
        ⟨⟨"Page", "title"⟩, ⟨"Card", "head"⟩, ⟨"a.html", .start⟩⟩] := by
    rw [hset]
    cbv
  have hbody : ((gathered set).1.find? "Page" "body").map (·.content.isSome) = some true := by
    rw [hset]
    cbv
  have hhead : ((gathered set).1.find? "Card" "head").map (·.value.isSome) = some true := by
    rw [hset]
    cbv
  obtain ⟨-, -, -, hcontent, hvalue, -⟩ := spread_least set handovers horder
  have hinner : PassesOn set ⟨"Page", "body"⟩ ⟨"Card", "inner"⟩ := by
    apply handsTo_gathered_iff.1
    rw [hhandovers]
    exact ⟨_, List.mem_cons_self, rfl, rfl⟩
  have htitle : PassesOn set ⟨"Page", "title"⟩ ⟨"Card", "head"⟩ := by
    apply handsTo_gathered_iff.1
    rw [hhandovers]
    exact ⟨_, List.mem_cons_of_mem _ List.mem_cons_self, rfl, rfl⟩
  have hbound : BoundToBlock set ⟨"Page", "body"⟩ := by
    apply contentAt_gathered_iff.1
    obtain ⟨s, hs, hsome⟩ := Option.map_eq_some_iff.1 hbody
    exact ⟨s, hs, hsome⟩
  have hused : ValueAt (gathered set).1 ⟨"Card", "head"⟩ := by
    obtain ⟨s, hs, hsome⟩ := Option.map_eq_some_iff.1 hhead
    exact ⟨s, hs, hsome⟩
  refine ⟨horder, ?_, ?_⟩
  · exact (hcontent _).2 ⟨_, .single (.inr hinner), .inl hbound⟩
  · exact (hvalue _).2 (.inr ⟨_, .single htitle, .inl hused⟩)

end TagLoom.Inference

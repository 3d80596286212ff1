import TagLoom.Proofs.Expr.Words
import TagLoom.Proofs.Inference.Position
import TagLoom.Proofs.Inference.Spread
import TagLoom.Proofs.TagSet.Build

/-!
# Soundness of the inferred parameters

When neither the tag set nor the inference reports an error, every call of a tag fits its signature,
content is handed to content parameters and to no others, and a content parameter is read only to be
written or handed on.
-/

namespace TagLoom.Inference

open Diagnostic (hasErrors hasErrors_append hasErrors_flatMap)
open Node (Inside ReadsAs Role)

/-! ## What fits -/

def IsContentParam (sigs : List Signature) (tag name : Bytes) : Prop :=
  ∃ sig p, Signature.find? sigs tag = some sig ∧ sig.param? name = some p ∧ p.type = .content

/-- An expression is nothing but a content parameter of the tag it stands in. -/
def ReadsContent (sigs : List Signature) (tag : Bytes) (scope : List Bytes) (e : Expression) : Prop :=
  ∃ pos n, e.tree = .name pos n ∧ n ∉ scope ∧ IsContentParam sigs tag n

/-- An argument is a block, or a content parameter of the caller handed on. -/
def HandsContent (sigs : List Signature) (caller : Bytes) (scope : List Bytes) : Arg → Prop
  | .content _ _ _ => True
  | .expr _ _ e => ReadsContent sigs caller scope e
  | .text _ _ _ => False

/-- The arguments of a call fit a signature: they name its parameters, each once; what is required
is there and what is left out has a default; content arrives exactly at content parameters. -/
structure Fits (sigs : List Signature) (caller : Bytes) (scope : List Bytes) (sig : Signature)
    (args : List Arg) : Prop where
  known : ∀ a ∈ args, (sig.param? a.name).isSome = true
  once : (args.map Arg.name).Nodup
  required : ∀ p ∈ sig.params, (∃ a ∈ args, a.name = p.name) ∨
    p.required = false ∧ p.default.isSome = true
  typed : ∀ p ∈ sig.params, p.type = .content ∨ p.type = .text ∨ p.type = .value
  content : ∀ a ∈ args, ∀ p, sig.param? a.name = some p →
    (p.type = .content ↔ HandsContent sigs caller scope a)

/-! ## Reports -/

theorem slotReports_isError (s : Slot) : ∀ d ∈ slotReports s, d.isError = true := by
  have hone {b : Prop} [Decidable b] {d : Diagnostic} (h : d.isError = true) :
      ∀ e ∈ (if b then [d] else []), e.isError = true := by
    intro e he
    split at he
    · rwa [List.mem_singleton.1 he]
    · cases he
  unfold slotReports
  extract_lets subject
  split
  · refine List.forall_mem_append.2 ⟨?_, hone rfl⟩
    split
    · exact fun d hd => by rw [List.mem_singleton.1 hd]; rfl
    · exact fun d hd => (nomatch hd)
  · split
    · split
      · exact fun d hd => by rw [List.mem_singleton.1 hd]; rfl
      · exact fun d hd => (nomatch hd)
    · exact fun d hd => (nomatch hd)

theorem firstUse_eq_none {u v : Option Use} (h : firstUse u v = none) : u = none ∧ v = none := by
  unfold firstUse at h
  split at h
  · exact ⟨rfl, h⟩
  · cases h
  · split at h <;> cases h

theorem only_content {s : Slot} (h : hasErrors (slotReports s) = false) (hs : s.isContent = true) :
    s.value = none ∧ s.scalar = none := by
  have hnil := Diagnostic.eq_nil_of_not_hasErrors (slotReports_isError s) h
  unfold slotReports at hnil
  extract_lets subject at hnil
  rw [if_pos hs, List.append_eq_nil_iff] at hnil
  have hfirst := hnil.1
  split at hfirst
  · cases hfirst
  · rename_i hnone
    exact firstUse_eq_none hnone

theorem typeOf_eq_content {s : Slot} : typeOf s = .content ↔ s.isContent = true := by
  unfold typeOf
  split
  · rename_i h
    exact ⟨fun _ => h, fun _ => rfl⟩
  · rename_i h
    refine ⟨fun htype => ?_, fun hc => absurd hc h⟩
    split at htype
    · rename_i hexplicit
      exact absurd (by simp [Slot.isContent, hexplicit, htype]) h
    · split at htype <;> cases htype

theorem checkArg_names {site : CallSite} {sig : Signature} {args : List Arg} {bound : Bound}
    (h : (args.foldl (checkArg site sig) bound).reports = []) :
    bound.reports = [] ∧ (∀ a ∈ args, (sig.param? a.name).isSome = true) ∧
      (args.foldl (checkArg site sig) bound).names = bound.names ++ args.map Arg.name ∧
      (bound.names.Nodup → (bound.names ++ args.map Arg.name).Nodup) := by
  induction args generalizing bound with
  | nil => exact ⟨h, fun _ ha => (nomatch ha), by simp, fun hn => by simpa using hn⟩
  | cons a args ih =>
      obtain ⟨hreports, hknown, hnames, hnodup⟩ := ih h
      rw [List.foldl_cons, hnames]
      unfold checkArg at hreports hnodup ⊢
      split at hreports
      · simp at hreports
      · rename_i hparam
        split at hreports
        · simp at hreports
        · rename_i hnew
          rw [if_neg hparam, if_neg hnew] at hnodup ⊢
          have hparam : (sig.param? a.name).isSome = true := by
            simpa [Option.isSome_iff_ne_none] using hparam
          have hnew : a.name ∉ bound.names := by simpa using hnew
          refine ⟨hreports, List.forall_mem_cons.2 ⟨hparam, hknown⟩, by simp, fun hn => ?_⟩
          have hcons := hnodup (List.nodup_append.2 ⟨hn, List.nodup_singleton _, by
            intro x hx y hy
            rw [List.mem_singleton.1 hy]
            exact fun heq => hnew (heq ▸ hx)⟩)
          simpa using hcons

theorem checkCall_isError (sig : Signature) (site : CallSite) :
    ∀ d ∈ checkCall sig site, d.isError = true := by
  have harg (bound : Bound) (a : Arg) (h : ∀ d ∈ bound.reports, d.isError = true) :
      ∀ d ∈ (checkArg site sig bound a).reports, d.isError = true := by
    unfold checkArg
    split
    · exact List.forall_mem_append.2 ⟨h, fun d hd => by rw [List.mem_singleton.1 hd]; rfl⟩
    · split
      · exact List.forall_mem_append.2 ⟨h, fun d hd => by rw [List.mem_singleton.1 hd]; rfl⟩
      · exact h
  unfold checkCall
  extract_lets bound absent
  refine List.forall_mem_append.2 ⟨?_, ?_⟩
  · exact List.foldlRecOn site.args (checkArg site sig) (by exact fun _ h => (nomatch h))
      fun bound h a _ => harg bound a h
  · split
    · exact fun _ h => (nomatch h)
    · exact fun d hd => by rw [List.mem_singleton.1 hd]; rfl

/-- A call that is not reported on names parameters of the callee, each once, and all that are
required. -/
theorem names_of_checkCall {sig : Signature} {site : CallSite}
    (h : hasErrors (checkCall sig site) = false) :
    (∀ a ∈ site.args, (sig.param? a.name).isSome = true) ∧ (site.args.map Arg.name).Nodup ∧
      ∀ p ∈ sig.params, p.required = true → ∃ a ∈ site.args, a.name = p.name := by
  have hnil := Diagnostic.eq_nil_of_not_hasErrors (checkCall_isError sig site) h
  unfold checkCall at hnil
  extract_lets bound absent at hnil
  rw [List.append_eq_nil_iff] at hnil
  obtain ⟨hreports, habsent⟩ := hnil
  obtain ⟨-, hknown, hnames, hnodup⟩ := checkArg_names hreports
  refine ⟨hknown, by simpa using hnodup List.nodup_nil, fun p hp hrequired => ?_⟩
  by_contra hno
  have hmissing : p.name ∉ bound.names := by
    rw [show bound.names = [] ++ site.args.map Arg.name from hnames]
    simpa using hno
  have hmem : Bytes.quote p.name ∈ absent := by
    refine List.mem_map.2 ⟨p, List.mem_filter.2 ⟨hp, ?_⟩, rfl⟩
    simp [hrequired, hmissing]
  rw [if_neg (by simp [List.ne_nil_of_mem hmem])] at habsent
  cases habsent

theorem not_isContent_of_checkBuiltin {b : Builtin} {c : CallSite}
    (h : hasErrors (checkBuiltin b c) = false) :
    ∀ a ∈ c.args, Arg.isContent a = false := by
  have hkeeps := foldl_keeps
    (R := fun (bound bound' : Bound) => bound.reports <+: bound'.reports)
    (Q := fun a bound => Arg.isContent a = true →
      ∃ r ∈ bound.reports, r.isError = true)
    (fun _ => List.prefix_refl _) List.IsPrefix.trans (f := checkBuiltinArg b c)
    (fun bound a => ?_) (fun hle hq ha => ?_) c.args ⟨[], []⟩
  · intro a ha
    by_contra hcontent
    obtain ⟨r, hr, herror⟩ := hkeeps.2 a ha (by simpa using hcontent)
    rw [checkBuiltin, hasErrors_append] at h
    exact absurd (Diagnostic.hasErrors_eq_false.1 h.1 r hr) (by simp [herror])
  · unfold checkBuiltinArg
    split
    · refine ⟨List.prefix_append _ _, fun hcontent =>
        ⟨_, List.mem_append_right _ (List.mem_singleton_self _), ?_⟩⟩
      rw [if_pos hcontent]
      rfl
    · split
      · exact ⟨List.prefix_append _ _,
          fun _ => ⟨_, List.mem_append_right _ (List.mem_singleton_self _), rfl⟩⟩
      · refine ⟨List.prefix_append _ _, fun hcontent => ?_⟩
        rw [checkBuiltinValue, if_pos hcontent]
        exact ⟨_, List.mem_append_right _ (List.mem_singleton_self _), rfl⟩
  · obtain ⟨r, hr, herror⟩ := hq ha
    exact ⟨r, hle.subset hr, herror⟩

/-! ## The evidence of a set -/

/-- The evidence bodies and calls give, before it is spread. -/
def gathered (set : TagSet) : Slots × List Handover :=
  (set.defs.flatMap callSites).foldl bindCall (set.defs.flatMap collect, [])

theorem evidence_eq (set : TagSet) :
    evidence set = spread (gathered set).2 (missing (gathered set).1 + 1) (gathered set).1 := rfl

theorem binds_gathered (set : TagSet) : Binds (set.defs.flatMap collect, []) (gathered set) :=
  (bindCalls_given _ _).1

theorem grows_evidence (set : TagSet) : (gathered set).1.Grows (evidence set) :=
  (spreads_spread _ _ _).grows

theorem find?_flatMap_collect {defs : List Definition} (hnames : (defs.map (·.name)).Nodup)
    {d : Definition} (hd : d ∈ defs) (name : Bytes) :
    Slots.find? (defs.flatMap collect) d.name name = (collect d).find? d.name name := by
  have htag (e : Definition) (hne : e.name ≠ d.name) : (collect e).find? d.name name = none := by
    refine List.find?_eq_none.2 fun s hs => ?_
    have hkey : (s.tag, s.param) ∈ (collect e).keys := List.mem_map.2 ⟨s, hs, rfl⟩
    rw [show s.tag = e.name from (collect_formed e _ hkey).tag]
    simp [hne]
  induction defs with
  | nil => cases hd
  | cons e defs ih =>
      have hcons : Slots.find? ((e :: defs).flatMap collect) d.name name =
          ((collect e).find? d.name name).or (Slots.find? (defs.flatMap collect) d.name name) := by
        rw [List.flatMap_cons, Slots.find?, List.find?_append]
        rfl
      rw [hcons]
      rw [List.map_cons, List.nodup_cons] at hnames
      rcases List.mem_cons.1 hd with rfl | hd
      · have hrest : Slots.find? (defs.flatMap collect) d.name name = none := by
          refine List.find?_eq_none.2 fun s hs => ?_
          obtain ⟨f, hf, hsf⟩ := List.mem_flatMap.1 hs
          have hne : f.name ≠ d.name := fun h =>
            hnames.1 (List.mem_map.2 ⟨f, hf, h⟩)
          have hnone := List.find?_eq_none.1 (htag f hne) s hsf
          exact hnone
        rw [hrest, Option.or_none]
      · have hne : e.name ≠ d.name := fun h => hnames.1 (List.mem_map.2 ⟨d, hd, h.symm⟩)
        rw [htag e hne, Option.none_or]
        exact ih hnames.2 hd

theorem Read.Recorded.congr {r : Read} {tag name : Bytes} {slots slots' : Slots}
    (h : r.Recorded tag name slots) (hfind : slots'.find? tag name = slots.find? tag name) :
    r.Recorded tag name slots' := by
  refine ⟨?_, fun hm => ?_, fun hm => ?_⟩
  · rw [Slots.has, hfind]
    exact h.known
  · rw [Slots.At, hfind]
    exact h.value hm
  · rw [Slots.At, hfind]
    exact h.scalar hm

theorem recorded_evidence {set : TagSet} (hnames : (set.defs.map (·.name)).Nodup) {d : Definition}
    (hd : d ∈ set.defs) {r : Read} (hr : r ∈ bodyReads [] d.body) {name : Bytes}
    (hname : name ∈ r.names) : r.Recorded d.name name (evidence set) :=
  ((collect_recorded d r hr name hname).congr (find?_flatMap_collect hnames hd name)).below
    ((binds_gathered set).grows.below.trans (grows_evidence set).below)

theorem given_evidence {set : TagSet} {d : Definition} (hd : d ∈ set.defs) {site : CallSite}
    (hsite : site ∈ callSites d) {a : Arg} (ha : a ∈ site.args) :
    Given site a (evidence set, (gathered set).2) := by
  have hgiven : Given site a (gathered set) :=
    (bindCalls_given (set.defs.flatMap callSites) _).2 site (List.mem_flatMap.2 ⟨d, hd, hsite⟩) a ha
  have hgrows := grows_evidence set
  refine hgiven.binds ⟨hgrows, fun _ h => h, fun h o ho => ?_⟩
  exact ⟨hgrows.below.has (h o ho).1, hgrows.below.has (h o ho).2⟩

theorem isContentAt_evidence {set : TagSet} {h : Handover} (hh : h ∈ (gathered set).2) :
    isContentAt (evidence set) h.caller = isContentAt (evidence set) h.callee :=
  isContentAt_spread ((binds_gathered set).known fun _ ho => (nomatch ho)) h hh

/-! ## Signatures -/

theorem param?_signatureOf (slots : Slots) (tag name : Bytes) :
    (signatureOf slots tag).param? name =
      (slots.find? tag name).map fun s => { s.param with type := typeOf s } := by
  have hcomp : ((fun p : Param => p.name == name) ∘
      fun s : Slot => { s.param with type := typeOf s }) = fun s : Slot => s.param.name == name := rfl
  rw [Signature.param?, signatureOf, List.find?_map, hcomp, Slots.ofTag, List.find?_filter,
    Slots.find?]
  simp only [Bool.decide_and, Bool.decide_eq_true]

theorem find?_infer {set : TagSet} {tag : Bytes} (h : tag ∈ set.defs.map (·.name)) :
    Signature.find? (infer set).1 tag = some (signatureOf (evidence set) tag) := by
  have hsigs : (infer set).1 = set.defs.map fun d => signatureOf (evidence set) d.name := rfl
  have hcomp : ((fun sig : Signature => sig.tag == tag) ∘
      fun d : Definition => signatureOf (evidence set) d.name) = fun d => d.name == tag := rfl
  rw [Signature.find?, hsigs, List.find?_map, hcomp]
  obtain ⟨d, hd, rfl⟩ := List.mem_map.1 h
  cases hf : set.defs.find? fun e => e.name == d.name with
  | none => exact absurd (List.find?_eq_none.1 hf d hd) (by simp)
  | some e =>
      have hname : e.name = d.name := by simpa using List.find?_some hf
      rw [Option.map_some, hname]

theorem isContentParam_iff {set : TagSet} {tag : Bytes} (h : tag ∈ set.defs.map (·.name))
    (name : Bytes) :
    IsContentParam (infer set).1 tag name ↔ isContentAt (evidence set) ⟨tag, name⟩ = true := by
  unfold IsContentParam isContentAt
  rw [find?_infer h]
  constructor
  · rintro ⟨sig, p, hsig, hp, htype⟩
    cases hsig
    rw [param?_signatureOf, Option.map_eq_some_iff] at hp
    obtain ⟨s, hs, rfl⟩ := hp
    rw [hs]
    exact typeOf_eq_content.1 htype
  · intro hcontent
    cases hs : (evidence set).find? tag name with
    | none => simp [hs] at hcontent
    | some s =>
        refine ⟨_, _, rfl, by rw [param?_signatureOf, hs]; rfl, ?_⟩
        rw [hs] at hcontent
        exact typeOf_eq_content.2 hcontent

/-- The parameters of a signature are those that were collected for the tag, with their types. -/
theorem exists_formed {set : TagSet} {tag : Bytes} {p : Param}
    (hp : p ∈ (signatureOf (evidence set) tag).params) :
    ∃ d ∈ set.defs, d.name = tag ∧ ∃ s : Slot, Formed d (tag, s.param) ∧
      p = { s.param with type := typeOf s } := by
  obtain ⟨s, hs, rfl⟩ := List.mem_map.1 hp
  obtain ⟨hmem, htag⟩ := List.mem_filter.1 hs
  have htag : s.tag = tag := by simpa using htag
  have hkey : (s.tag, s.param) ∈ (evidence set).keys := List.mem_map.2 ⟨s, hmem, rfl⟩
  rw [(grows_evidence set).keys, (binds_gathered set).grows.keys] at hkey
  obtain ⟨u, hu, hkey⟩ := List.mem_map.1 hkey
  obtain ⟨d, hd, hud⟩ := List.mem_flatMap.1 hu
  have hformed := collect_formed d _ (List.mem_map.2 ⟨u, hud, hkey⟩)
  rw [htag] at hformed
  exact ⟨d, hd, hformed.tag.symm, s, hformed, rfl⟩

/-- Every parameter of a signature has a type, and a default unless it is required. -/
theorem param_signatureOf {set : TagSet} {tag : Bytes} {p : Param}
    (hp : p ∈ (signatureOf (evidence set) tag).params) :
    p.required = p.default.isNone ∧ (p.type = .content ∨ p.type = .text ∨ p.type = .value) := by
  obtain ⟨d, -, -, s, hformed, rfl⟩ := exists_formed hp
  refine ⟨hformed.required, ?_⟩
  have hexplicit : s.param.explicit = (s.param.type != .unknown) := hformed.explicit
  show typeOf s = _ ∨ typeOf s = _ ∨ typeOf s = _
  unfold typeOf
  split
  · exact Or.inl rfl
  · split
    · rename_i hgiven
      rw [hexplicit] at hgiven
      cases htype : s.param.type <;> simp [htype] at hgiven ⊢
    · split
      · exact Or.inr (Or.inr rfl)
      · exact Or.inr (Or.inl rfl)

/-! ## Content and other uses -/

/-- A parameter that is read inside a larger expression, or as text, is no content parameter. -/
theorem not_isContentParam {set : TagSet} (hslots : ∀ d ∈ set.defs,
      ∀ s ∈ (evidence set).ofTag d.name, hasErrors (slotReports s) = false)
    {tag : Bytes} (htag : tag ∈ set.defs.map (·.name)) {name : Bytes} {P : Slot → Prop}
    (hP : ∀ s, P s → s.value.isSome = true ∨ s.scalar.isSome = true)
    (h : (evidence set).At tag name P) : ¬ IsContentParam (infer set).1 tag name := by
  rw [isContentParam_iff htag]
  intro hcontent
  obtain ⟨s, hs, hp⟩ := h
  obtain ⟨d, hd, rfl⟩ := List.mem_map.1 htag
  rw [isContentAt, hs] at hcontent
  have hmem : s ∈ (evidence set).ofTag d.name := by
    have hfound := List.find?_some hs
    simp only [Bool.and_eq_true, beq_iff_eq] at hfound
    exact List.mem_filter.2 ⟨List.mem_of_find?_eq_some hs, by simp [hfound.1]⟩
  obtain ⟨hvalue, hscalar⟩ := only_content (hslots d hd s hmem) hcontent
  rcases hP s hp with h | h
  · simp [hvalue] at h
  · simp [hscalar] at h

theorem handedOn_eq_some {slots : Slots} {site : CallSite} {a : Arg} {r : SlotRef}
    (h : handedOn slots site a = some r) :
    ∃ pos name e, a = .expr pos name e ∧ e.isBare = true ∧ e.source ∉ site.scope ∧
      r = ⟨site.caller, e.source⟩ := by
  cases a with
  | text pos name parts => cases h
  | content pos name body => cases h
  | expr pos name e =>
      simp only [handedOn] at h
      split at h
      · rename_i hcond
        simp only [Bool.and_eq_true, Bool.not_eq_true', List.contains_eq_mem,
          decide_eq_false_iff_not] at hcond
        exact ⟨pos, name, e, rfl, hcond.1.1, hcond.1.2, (Option.some.inj h).symm⟩
      · cases h

theorem handedOn_of_readsContent {set : TagSet} (site : CallSite)
    (hcaller : site.caller ∈ set.defs.map (·.name)) (pos : Pos) (name : Bytes) {e : Expression}
    (hbare : ∀ p n, e.tree = .name p n → e.source = n)
    (h : ReadsContent (infer set).1 site.caller site.scope e) :
    handedOn (evidence set) site (.expr pos name e) = some ⟨site.caller, e.source⟩ := by
  obtain ⟨p, n, htree, hscope, hparam⟩ := h
  have hsource := hbare p n htree
  have hhas : (evidence set).has site.caller n = true := by
    have hat := (isContentParam_iff hcaller n).1 hparam
    rw [isContentAt] at hat
    cases hs : (evidence set).find? site.caller n with
    | none => simp [hs] at hat
    | some s => simp [Slots.has, hs]
  simp [handedOn, Expression.isBare, htree, hsource, hscope, hhas]

theorem content_iff_handsContent {set : TagSet} (hslots : ∀ d ∈ set.defs,
      ∀ s ∈ (evidence set).ofTag d.name, hasErrors (slotReports s) = false)
    {site : CallSite} (hcaller : site.caller ∈ set.defs.map (·.name))
    (hcallee : site.name ∈ set.defs.map (·.name)) (huser : Name.isBuiltin site.name = false)
    {a : Arg} (hgiven : Given site a (evidence set, (gathered set).2))
    (hbare : ∀ pos name e, a = .expr pos name e → ∀ p n, e.tree = .name p n → e.source = n)
    (hknown : (evidence set).has site.name a.name = true) :
    IsContentParam (infer set).1 site.name a.name ↔
      HandsContent (infer set).1 site.caller site.scope a := by
  have hhanded {r : SlotRef} (hr : handedOn (evidence set) site a = some r) :
      isContentAt (evidence set) r = isContentAt (evidence set) ⟨site.name, a.name⟩ := by
    obtain ⟨h, hh, hcaller, hcallee⟩ := hgiven.handover huser hknown r hr
    rw [← hcaller, ← hcallee]
    exact isContentAt_evidence hh
  constructor
  · intro hparam
    cases hblock : Arg.isContent a with
    | true =>
        cases a with
        | content pos name body => trivial
        | text pos name parts => cases hblock
        | expr pos name e => cases hblock
    | false =>
        cases hr : handedOn (evidence set) site a with
        | none =>
            exact absurd hparam (not_isContentParam hslots hcallee (fun s h => Or.inr h)
              (hgiven.scalar huser hknown hblock hr))
        | some r =>
            have hends := hhanded hr
            obtain ⟨pos, name, e, rfl, hisBare, hscope, rfl⟩ := handedOn_eq_some hr
            obtain ⟨p, n, htree⟩ := Expression.exists_name_of_isBare hisBare
            have hsource := hbare pos name e rfl p n htree
            rw [hsource] at hscope hends
            refine ⟨p, n, htree, hscope, (isContentParam_iff hcaller n).2 ?_⟩
            rw [hends]
            exact (isContentParam_iff hcallee _).1 hparam
  · intro hhands
    cases a with
    | text pos name parts => cases hhands
    | content pos name body =>
        obtain ⟨s, hs, hcontent⟩ := (hgiven.content huser hknown rfl).at
        have hcontent : s.content.isSome = true := hcontent
        rw [isContentParam_iff hcallee, isContentAt]
        have hs : (evidence set).find? site.name (Arg.content pos name body).name = some s := hs
        rw [hs]
        simp [Slot.isContent, hcontent]
    | expr pos name e =>
        have hr := handedOn_of_readsContent site hcaller pos name
          (hbare pos name e rfl) hhands
        obtain ⟨p, n, htree, hscope, hparam⟩ := hhands
        rw [isContentParam_iff hcallee, ← hhanded hr, hbare pos name e rfl p n htree]
        exact (isContentParam_iff hcaller n).1 hparam

theorem isBuiltin_of_find? {name : Bytes} {b : Builtin} (h : Builtin.find? name = some b) :
    Name.isBuiltin name = true := by
  have hall : ∀ b ∈ Builtin.all, Name.isBuiltin b.name = true := by decide
  have hname : b.name = name := by simpa using List.find?_some h
  rw [← hname]
  exact hall b (List.mem_of_find?_eq_some h)

/-- When the inference reports no error, none of its checks does. -/
structure Quiet (set : TagSet) : Prop where
  defaults : ∀ d ∈ set.defs, hasErrors (defaultReports d) = false
  slots : ∀ d ∈ set.defs, ∀ s ∈ (evidence set).ofTag d.name, hasErrors (slotReports s) = false
  calls : ∀ d ∈ set.defs, ∀ c ∈ callSites d, hasErrors (checkSite (infer set).1 c) = false

theorem quiet_infer {set : TagSet} (h : hasErrors (infer set).2 = false) : Quiet set := by
  have hreports : (infer set).2 = set.defs.flatMap defaultReports ++
      set.defs.flatMap (fun d => ((evidence set).ofTag d.name).flatMap slotReports) ++
        (set.defs.flatMap callSites).flatMap (checkSite (infer set).1) := rfl
  rw [hreports, hasErrors_append, hasErrors_append] at h
  obtain ⟨⟨hdefaults, hslots⟩, hcalls⟩ := h
  exact ⟨hasErrors_flatMap.1 hdefaults,
    fun d hd => hasErrors_flatMap.1 (hasErrors_flatMap.1 hslots d hd),
    fun d hd c hc => hasErrors_flatMap.1 hcalls c (List.mem_flatMap.2 ⟨d, hd, hc⟩)⟩

/-- A content parameter is read only as a bare name, and only to be written or handed to a tag. -/
theorem shown_or_handed {set : TagSet} (hquiet : Quiet set)
    (hnames : (set.defs.map (·.name)).Nodup) {d : Definition} (hd : d ∈ set.defs)
    (hbare : ∀ scope n role e, Inside [] d.body scope n → n.ReadsAs role e →
      ∀ p m, e.tree = .name p m → e.source = m)
    {scope : List Bytes} {n : Node} {role : Role} {e : Expression} (hinside : Inside [] d.body scope n)
    (hreads : n.ReadsAs role e) {m : Bytes} (hm : m ∈ e.names) (hscope : m ∉ scope)
    (hparam : IsContentParam (infer set).1 d.name m) :
    e.isBare = true ∧
      (role = .shown ∨ ∃ callee, role = .argument callee ∧ Name.isBuiltin callee = false) := by
  have hcaller : d.name ∈ set.defs.map (·.name) := List.mem_map.2 ⟨d, hd, rfl⟩
  obtain ⟨pos, hread⟩ := read_of_readsAs scope hreads
  have hmem : m ∈ (readOf scope e pos role.mode).names := by
    simp [readOf, hm, hscope]
  have hrecorded := recorded_evidence hnames hd (reads_of_inside hinside _ hread) hmem
  have hnot {P : Slot → Prop} (hP : ∀ s, P s → s.value.isSome = true ∨ s.scalar.isSome = true)
      (h : (evidence set).At d.name m P) : False :=
    not_isContentParam hquiet.slots hcaller hP h hparam
  have hbareE : e.isBare = true := by
    by_contra hb
    exact hnot (fun s h => Or.inl h) (hrecorded.value (by simp [readOf, hb]))
  have hmode : (readOf scope e pos role.mode).mode = role.mode := by simp [readOf, hbareE]
  refine ⟨hbareE, ?_⟩
  cases hreads with
  | shown => exact Or.inl rfl
  | test => exact absurd (hrecorded.value hmode) (hnot fun s h => Or.inl h)
  | collection => exact absurd (hrecorded.value hmode) (hnot fun s h => Or.inl h)
  | part => exact absurd (hrecorded.scalar hmode) (hnot fun s h => Or.inr h)
  | @argument p callee args q a e ha =>
      refine Or.inr ⟨callee, rfl, ?_⟩
      by_contra hbuiltin
      have hbuiltin : Name.isBuiltin callee = true := by simpa using hbuiltin
      obtain ⟨o, n, htree⟩ := Expression.exists_name_of_isBare hbareE
      have hn := Expression.eq_of_mem_names htree hm
      rw [hn] at hscope hparam hnot
      have hsite : ⟨d.name, d.file, scope, p, callee, args⟩ ∈ callSites d := call_of_inside hinside
      have hr := handedOn_of_readsContent ⟨d.name, d.file, scope, p, callee, args⟩ hcaller q a
        (hbare scope _ _ e hinside (.argument ha)) ⟨o, n, htree, hscope, hparam⟩
      have hscalar := (given_evidence hd hsite ha).builtin hbuiltin _ hr
      rw [hbare scope _ _ e hinside (.argument ha) o n htree] at hscalar
      exact hnot (fun s h => Or.inr h) hscalar

/-- When neither the tag set nor the inference reports an error and every bare expression is spelled
as its name, every call of a tag in any place of a body fits the signature of that tag.  A content
parameter is read only as a bare name, and only to be written or to be handed to a tag. -/
theorem calls_fit_and_content_reads {templates : List Template}
    (hbuild : hasErrors (TagSet.build templates).2 = false)
    (hinfer : hasErrors (infer (TagSet.build templates).1).2 = false)
    (hbare : ∀ d ∈ (TagSet.build templates).1.defs, ∀ scope n role e,
      Inside [] d.body scope n → n.ReadsAs role e → ∀ p m, e.tree = .name p m → e.source = m) :
    let set := (TagSet.build templates).1
    let sigs := (infer set).1
    ∀ d ∈ set.defs,
      (∀ scope pos name args, Inside [] d.body scope (.invocation pos name args) →
        Name.isBuiltin name = false →
          ∃ sig, Signature.find? sigs name = some sig ∧ Fits sigs d.name scope sig args) ∧
      (∀ scope n role e, Inside [] d.body scope n → n.ReadsAs role e →
        ∀ m ∈ e.names, m ∉ scope → IsContentParam sigs d.name m →
          e.isBare = true ∧
            (role = .shown ∨ ∃ callee, role = .argument callee ∧ Name.isBuiltin callee = false)) := by
  intro set sigs d hd
  obtain ⟨hnames, hresolved, -⟩ := TagSet.build_clean hbuild
  have hquiet : Quiet set := quiet_infer hinfer
  have hcaller : d.name ∈ set.defs.map (·.name) := List.mem_map.2 ⟨d, hd, rfl⟩
  constructor
  · intro scope pos name args hinside huser
    have hsite : ⟨d.name, d.file, scope, pos, name, args⟩ ∈ callSites d := call_of_inside hinside
    have hcallee : name ∈ set.defs.map (·.name) := by
      refine (hresolved d hd _ hsite ?_).2
      cases hb : Builtin.find? name with
      | none => rfl
      | some b => rw [isBuiltin_of_find? hb] at huser; cases huser
    have hsig : Signature.find? sigs name = some (signatureOf (evidence set) name) :=
      find?_infer hcallee
    have hcheck : hasErrors (checkSite sigs ⟨d.name, d.file, scope, pos, name, args⟩) = false :=
      hquiet.calls d hd _ hsite
    simp only [checkSite, huser, hsig, Bool.false_eq_true, if_false, Option.map_some,
      Option.getD_some] at hcheck
    obtain ⟨hknown, honce, hrequired⟩ := names_of_checkCall hcheck
    refine ⟨_, hsig, hknown, honce, fun p hp => ?_, fun p hp => (param_signatureOf hp).2,
      fun a ha p hp => ?_⟩
    · cases hreq : p.required with
      | true => exact Or.inl (hrequired p hp hreq)
      | false =>
          have hdefault := (param_signatureOf hp).1
          rw [hreq] at hdefault
          exact Or.inr ⟨rfl, by simpa [Option.isSome_iff_ne_none] using hdefault.symm⟩
    · have htype : p.type = .content ↔ IsContentParam sigs name a.name :=
        ⟨fun h => ⟨_, p, hsig, hp, h⟩, fun ⟨sig, q, hs, hq, h⟩ => by
          rw [hsig] at hs
          cases hs
          rw [hp] at hq
          cases hq
          exact h⟩
      have hhas : (evidence set).has name a.name = true := by
        rw [param?_signatureOf, Option.map_eq_some_iff] at hp
        obtain ⟨s, hs, -⟩ := hp
        simp [Slots.has, hs]
      rw [htype]
      exact content_iff_handsContent hquiet.slots hcaller hcallee huser (given_evidence hd hsite ha)
        (fun q arg e he => hbare d hd scope _ _ e hinside (.argument (he ▸ ha))) hhas
  · intro scope n role e hinside hreads m hm hscope hparam
    exact shown_or_handed hquiet hnames hd (hbare d hd) hinside hreads hm hscope hparam

/-- A card that shows its body, a page that hands its own body on to it, and a call with a block. -/
def handedPage : Template :=
  ⟨"a", "a.html", [
    ⟨"a", true, .start, [],
      [.invocation .start "Page" [.content .start "body" [.literal .start "hi"]]], "a.html", "a"⟩,
    ⟨"Page", false, .start, [],
      [.invocation .start "Card" [.expr .start "inner" ⟨"body", .name 0 "body"⟩]], "a.html", "a"⟩,
    ⟨"Card", false, .start, [],
      [.interpolation .start ⟨"inner", .name 0 "inner"⟩ none], "a.html", "a"⟩]⟩

theorem calls_fit_and_content_reads_handedPage :
    hasErrors (TagSet.build [handedPage]).2 = false ∧
    hasErrors (infer (TagSet.build [handedPage]).1).2 = false ∧
    (∀ d ∈ (TagSet.build [handedPage]).1.defs, ∀ scope n role e,
      Inside [] d.body scope n → n.ReadsAs role e → ∀ p m, e.tree = .name p m → e.source = m) ∧
    ∃ sig, Signature.find? (infer (TagSet.build [handedPage]).1).1 "Card" = some sig ∧
      Fits (infer (TagSet.build [handedPage]).1).1 "Page" [] sig
        [.expr .start "inner" ⟨"body", .name 0 "body"⟩] := by
  have hbuild : hasErrors (TagSet.build [handedPage]).2 = false := by cbv
  have hinfer : hasErrors (infer (TagSet.build [handedPage]).1).2 = false := by cbv
  have hdefs : (TagSet.build [handedPage]).1.defs =
      [handedPage.defs[2], handedPage.defs[1], handedPage.defs[0]] := by cbv
  have hbare : ∀ d ∈ (TagSet.build [handedPage]).1.defs, ∀ scope n role e,
      Inside [] d.body scope n → n.ReadsAs role e → ∀ p m, e.tree = .name p m → e.source = m := by
    rw [hdefs]
    intro d hd scope n role e hinside hreads p m htree
    simp only [List.mem_cons, List.not_mem_nil, or_false] at hd
    rcases hd with rfl | rfl | rfl
    · cases hinside <;> simp_all [handedPage]
      cases hreads
      cases htree
      rfl
    · cases hinside <;> simp_all [handedPage]
      cases hreads <;> simp_all
    · cases hinside <;> simp_all [handedPage]
      · cases hreads <;> simp_all
      · rename_i hn
        cases hn <;> simp_all
        cases hreads
  have hcard := (calls_fit_and_content_reads hbuild hinfer hbare handedPage.defs[1]
    (by rw [hdefs]; simp)).1 [] .start "Card" _ (.here List.mem_cons_self) (by decide)
  exact ⟨hbuild, hinfer, hbare, hcard⟩

end TagLoom.Inference

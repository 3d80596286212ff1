import TagLoom.Inference

/-!
# Evidence only grows

Every step of the inference keeps the parameters it knows and the evidence for them.  Once spread,
evidence of content is on both ends of a handover or on none.
-/

namespace TagLoom.Inference

namespace Slot

/-- The same parameter with at least the evidence. -/
structure Le (s t : Slot) : Prop where
  tag : t.tag = s.tag
  param : t.param = s.param
  content : s.content.isSome = true → t.content.isSome = true
  value : s.value.isSome = true → t.value.isSome = true
  scalar : s.scalar.isSome = true → t.scalar.isSome = true

theorem Le.refl (s : Slot) : s.Le s := ⟨rfl, rfl, id, id, id⟩

theorem Le.trans {s t u : Slot} (hst : s.Le t) (htu : t.Le u) : s.Le u :=
  ⟨htu.tag.trans hst.tag, htu.param.trans hst.param, fun h => htu.content (hst.content h),
    fun h => htu.value (hst.value h), fun h => htu.scalar (hst.scalar h)⟩

theorem content_asContent (u : Use) (s : Slot) : (s.asContent u).content.isSome = true := by
  simp [asContent]

theorem value_asValue (u : Use) (s : Slot) : (s.asValue u).value.isSome = true := by
  simp [asValue]

theorem scalar_asScalar (u : Use) (s : Slot) : (s.asScalar u).scalar.isSome = true := by
  simp [asScalar]

theorem le_asContent (u : Use) (s : Slot) : s.Le (s.asContent u) :=
  ⟨rfl, rfl, fun _ => content_asContent u s, id, id⟩

theorem le_asValue (u : Use) (s : Slot) : s.Le (s.asValue u) :=
  ⟨rfl, rfl, id, fun _ => value_asValue u s, id⟩

theorem le_asScalar (u : Use) (s : Slot) : s.Le (s.asScalar u) :=
  ⟨rfl, rfl, id, id, fun _ => scalar_asScalar u s⟩

end Slot

/-- What each step leaves behind and every later step keeps is there at the end. -/
theorem foldl_keeps {σ γ : Type} {R : σ → σ → Prop} (hrefl : ∀ s, R s s)
    (htrans : ∀ {s t u}, R s t → R t u → R s u) {f : σ → γ → σ} {Q : γ → σ → Prop}
    (hf : ∀ s c, R s (f s c) ∧ Q c (f s c)) (hQ : ∀ {c s t}, R s t → Q c s → Q c t)
    (l : List γ) (s : σ) : R s (l.foldl f s) ∧ ∀ c ∈ l, Q c (l.foldl f s) := by
  induction l generalizing s with
  | nil => exact ⟨hrefl s, fun c hc => (nomatch hc)⟩
  | cons c l ih =>
      obtain ⟨hstep, hc⟩ := hf s c
      obtain ⟨hrest, hl⟩ := ih (f s c)
      exact ⟨htrans hstep hrest, List.forall_mem_cons.2 ⟨hQ hrest hc, hl⟩⟩

namespace Slots

/-- The parameters without their evidence, each with its tag. -/
def keys (slots : Slots) : List (Bytes × Param) := slots.map fun s => (s.tag, s.param)

/-- A change of a slot that only adds evidence. -/
def Adds (f : Slot → Slot) : Prop := ∀ s : Slot, s.Le (f s)

theorem find?_update {f : Slot → Slot} (hf : Adds f) (slots : Slots) (tag name tag' name' : Bytes) :
    (slots.update tag name f).find? tag' name' =
      (slots.find? tag' name').map fun s => if tag' = tag ∧ name' = name then f s else s := by
  have hkey : (fun s : Slot => s.tag == tag' && s.param.name == name') ∘
      (fun s => if s.tag == tag && s.param.name == name then f s else s) =
      fun s : Slot => s.tag == tag' && s.param.name == name' := by
    funext s
    dsimp only [Function.comp]
    split
    · rw [(hf s).tag, (hf s).param]
    · rfl
  rw [find?, update, List.find?_map, hkey, find?]
  cases hs : List.find? (fun s : Slot => s.tag == tag' && s.param.name == name') slots with
  | none => rfl
  | some s =>
      have hfound := List.find?_some hs
      simp only [Bool.and_eq_true, beq_iff_eq] at hfound
      simp [hfound.1, hfound.2]

theorem keys_update {f : Slot → Slot} (hf : Adds f) (slots : Slots) (tag name : Bytes) :
    (slots.update tag name f).keys = slots.keys := by
  rw [keys, update, List.map_map, keys]
  refine List.map_congr_left fun s _ => ?_
  dsimp only [Function.comp]
  split
  · rw [(hf s).tag, (hf s).param]
  · rfl

theorem has_eq_keys (slots : Slots) (tag name : Bytes) :
    slots.has tag name = slots.keys.any fun k => k.1 == tag && k.2.name == name := by
  rw [has, find?, List.isSome_find?, keys, List.any_map]
  rfl

theorem has_congr {slots slots' : Slots} (h : slots'.keys = slots.keys) (tag name : Bytes) :
    slots'.has tag name = slots.has tag name := by
  rw [has_eq_keys, has_eq_keys, h]

/-- The parameters of some slots are among others, with at least the evidence. -/
def Below (slots slots' : Slots) : Prop :=
  ∀ tag name s, slots.find? tag name = some s → ∃ t, slots'.find? tag name = some t ∧ s.Le t

theorem Below.refl (slots : Slots) : slots.Below slots := fun _ _ s h => ⟨s, h, Slot.Le.refl s⟩

theorem Below.trans {a b c : Slots} (hab : a.Below b) (hbc : b.Below c) : a.Below c := by
  intro tag name s hs
  obtain ⟨t, ht, hst⟩ := hab tag name s hs
  obtain ⟨u, hu, htu⟩ := hbc tag name t ht
  exact ⟨u, hu, hst.trans htu⟩

theorem below_update {f : Slot → Slot} (hf : Adds f) (slots : Slots) (tag name : Bytes) :
    slots.Below (slots.update tag name f) := by
  intro tag' name' s hs
  rw [find?_update hf, hs]
  refine ⟨_, rfl, ?_⟩
  split
  · exact hf s
  · exact Slot.Le.refl s

theorem below_append (slots more : Slots) : slots.Below (slots ++ more) := by
  intro tag name s hs
  have hs : List.find? (fun s : Slot => s.tag == tag && s.param.name == name) slots = some s := hs
  exact ⟨s, by rw [find?, List.find?_append, hs]; rfl, Slot.Le.refl s⟩

/-- The evidence for a parameter is as `P` says. -/
def At (slots : Slots) (tag name : Bytes) (P : Slot → Prop) : Prop :=
  ∃ s, slots.find? tag name = some s ∧ P s

theorem At.below {slots slots' : Slots} {tag name : Bytes} {P : Slot → Prop}
    (h : slots.At tag name P) (hle : slots.Below slots') (hP : ∀ s t : Slot, s.Le t → P s → P t) :
    slots'.At tag name P := by
  obtain ⟨s, hs, hp⟩ := h
  obtain ⟨t, ht, hst⟩ := hle tag name s hs
  exact ⟨t, ht, hP s t hst hp⟩

theorem at_update {f : Slot → Slot} (hf : Adds f) {slots : Slots} {tag name : Bytes}
    {P : Slot → Prop} (h : slots.has tag name = true) (hP : ∀ s, P (f s)) :
    (slots.update tag name f).At tag name P := by
  obtain ⟨s, hs⟩ := Option.isSome_iff_exists.1 h
  exact ⟨f s, by rw [find?_update hf, hs]; simp, hP s⟩

/-- The evidence for a parameter is as `P` says, in every slot of it. -/
structure Throughout (slots : Slots) (tag name : Bytes) (P : Slot → Prop) : Prop where
  known : slots.has tag name = true
  each : ∀ s ∈ slots, s.tag = tag → s.param.name = name → P s

theorem Throughout.at {slots : Slots} {tag name : Bytes} {P : Slot → Prop}
    (h : slots.Throughout tag name P) : slots.At tag name P := by
  obtain ⟨s, hs⟩ := Option.isSome_iff_exists.1 h.known
  have hfound := List.find?_some hs
  simp only [Bool.and_eq_true, beq_iff_eq] at hfound
  exact ⟨s, hs, h.each s (List.mem_of_find?_eq_some hs) hfound.1 hfound.2⟩

theorem throughout_update {f : Slot → Slot} (hf : Adds f) {slots : Slots} {tag name : Bytes}
    {P : Slot → Prop} (h : slots.has tag name = true) (hP : ∀ s, P (f s)) :
    (slots.update tag name f).Throughout tag name P := by
  refine ⟨(has_congr (keys_update hf slots tag name) tag name).trans h, fun t ht htag hname => ?_⟩
  obtain ⟨s, -, rfl⟩ := List.mem_map.1 ht
  split
  · exact hP s
  · rename_i hother
    rw [if_neg hother] at htag hname
    simp [htag, hname] at hother

end Slots

/-- There is evidence that a parameter is a structured value. -/
def HasValue (s : Slot) : Prop := s.value.isSome = true

def HasScalar (s : Slot) : Prop := s.scalar.isSome = true

theorem hasValue_mono (s t : Slot) (h : s.Le t) : HasValue s → HasValue t := h.value

theorem hasScalar_mono (s t : Slot) (h : s.Le t) : HasScalar s → HasScalar t := h.scalar

/-! ## Reads -/

structure Read.Recorded (r : Read) (tag name : Bytes) (slots : Slots) : Prop where
  known : slots.has tag name = true
  value : r.mode = .structural → slots.At tag name HasValue
  scalar : r.mode = .scalar → slots.At tag name HasScalar

theorem Slots.Below.has {slots slots' : Slots} (h : slots.Below slots') {tag name : Bytes}
    (hhas : slots.has tag name = true) : slots'.has tag name = true := by
  obtain ⟨s, hs⟩ := Option.isSome_iff_exists.1 hhas
  obtain ⟨t, ht, -⟩ := h tag name s hs
  exact Option.isSome_iff_exists.2 ⟨t, ht⟩

theorem Read.Recorded.below {r : Read} {tag name : Bytes} {slots slots' : Slots}
    (h : r.Recorded tag name slots) (hle : slots.Below slots') : r.Recorded tag name slots' :=
  ⟨hle.has h.known, fun hm => (h.value hm).below hle hasValue_mono,
    fun hm => (h.scalar hm).below hle hasScalar_mono⟩

theorem recordName_recorded (d : Definition) (r : Read) (slots : Slots) (name : Bytes) :
    slots.Below (recordName d r slots name) ∧ r.Recorded d.name name (recordName d r slots name) := by
  unfold recordName
  extract_lets known at_
  have hknown : slots.Below known ∧ known.has d.name name = true := by
    simp only [known]
    split
    · rename_i h
      exact ⟨Slots.Below.refl slots, h⟩
    · refine ⟨Slots.below_append slots _, ?_⟩
      rw [Slots.has, Slots.find?, List.find?_append]
      simp
  have hvalue : Slots.Adds (·.asValue at_) := Slot.le_asValue at_
  have hscalar : Slots.Adds (·.asScalar at_) := Slot.le_asScalar at_
  obtain ⟨hbelow, hhas⟩ := hknown
  cases hmode : r.mode with
  | structural =>
      have hle := Slots.below_update hvalue known d.name name
      exact ⟨hbelow.trans hle, hle.has hhas,
        fun _ => Slots.at_update hvalue hhas (Slot.value_asValue at_), fun h => (nomatch hmode ▸ h)⟩
  | scalar =>
      have hle := Slots.below_update hscalar known d.name name
      exact ⟨hbelow.trans hle, hle.has hhas, fun h => (nomatch hmode ▸ h),
        fun _ => Slots.at_update hscalar hhas (Slot.scalar_asScalar at_)⟩
  | render => exact ⟨hbelow, hhas, fun h => (nomatch hmode ▸ h), fun h => (nomatch hmode ▸ h)⟩
  | passThrough => exact ⟨hbelow, hhas, fun h => (nomatch hmode ▸ h), fun h => (nomatch hmode ▸ h)⟩

theorem recordRead_recorded (d : Definition) (slots : Slots) (r : Read) :
    slots.Below (recordRead d slots r) ∧
      ∀ name ∈ r.names, r.Recorded d.name name (recordRead d slots r) :=
  foldl_keeps Slots.Below.refl Slots.Below.trans (recordName_recorded d r)
    (fun hle h => Read.Recorded.below h hle) r.names slots

theorem collect_recorded (d : Definition) :
    ∀ r ∈ bodyReads [] d.body, ∀ name ∈ r.names, r.Recorded d.name name (collect d) :=
  (foldl_keeps (Q := fun r slots => ∀ name ∈ r.names, Read.Recorded r d.name name slots)
    Slots.Below.refl Slots.Below.trans (recordRead_recorded d)
    (fun hle h name hname => (h name hname).below hle) _ _).2

/-- What is collected for a tag belongs to it, what has no default is required, and a type is given
only by a declaration.  A default comes from a declaration, a name from a declaration or a read. -/
structure Formed (d : Definition) (key : Bytes × Param) : Prop where
  tag : key.1 = d.name
  required : key.2.required = key.2.default.isNone
  explicit : key.2.explicit = (key.2.type != .unknown)
  default : ∀ e, key.2.default = some e → ∃ decl ∈ d.decls, decl.default = some e
  name : (∃ decl ∈ d.decls, decl.name = key.2.name) ∨
    ∃ r ∈ bodyReads [] d.body, key.2.name ∈ r.names

theorem collect_formed (d : Definition) : ∀ key ∈ (collect d).keys, Formed d key := by
  have hname (r : Read) (hr : r ∈ bodyReads [] d.body) (slots : Slots) (name : Bytes)
      (hname : name ∈ r.names) (h : ∀ key ∈ slots.keys, Formed d key) :
      ∀ key ∈ (recordName d r slots name).keys, Formed d key := by
    unfold recordName
    extract_lets known at_
    have hknown : ∀ key ∈ known.keys, Formed d key := by
      simp only [known]
      split
      · exact h
      · rw [Slots.keys, List.map_append]
        refine List.forall_mem_append.2 ⟨h, fun key hkey => ?_⟩
        rw [List.map_singleton, List.mem_singleton] at hkey
        rw [hkey]
        exact ⟨rfl, rfl, rfl, fun _ he => (nomatch he), .inr ⟨r, hr, hname⟩⟩
    cases r.mode with
    | structural => exact Slots.keys_update (Slot.le_asValue at_) known d.name name ▸ hknown
    | scalar => exact Slots.keys_update (Slot.le_asScalar at_) known d.name name ▸ hknown
    | render => exact hknown
    | passThrough => exact hknown
  have hread (slots : Slots) (r : Read) (hr : r ∈ bodyReads [] d.body)
      (h : ∀ key ∈ slots.keys, Formed d key) : ∀ key ∈ (recordRead d slots r).keys, Formed d key :=
    List.foldlRecOn r.names (recordName d r) h fun slots hslots name hmem =>
      hname r hr slots name hmem hslots
  refine List.foldlRecOn (bodyReads [] d.body) (recordRead d) ?_ fun slots hslots r hr =>
    hread slots r hr hslots
  intro key hkey
  simp only [Slots.keys, List.map_map, List.mem_map, Function.comp] at hkey
  obtain ⟨decl, hdecl, rfl⟩ := hkey
  exact ⟨rfl, rfl, rfl, fun _ he => ⟨decl, hdecl, he⟩, .inl ⟨decl, hdecl, rfl⟩⟩

/-! ## Calls -/

/-- More evidence for the same parameters. -/
structure Slots.Grows (slots slots' : Slots) : Prop where
  below : slots.Below slots'
  keys : slots'.keys = slots.keys
  each : ∀ t ∈ slots', ∃ s ∈ slots, s.Le t

theorem Slots.Grows.refl (slots : Slots) : slots.Grows slots :=
  ⟨Slots.Below.refl slots, rfl, fun s hs => ⟨s, hs, Slot.Le.refl s⟩⟩

theorem Slots.Grows.trans {a b c : Slots} (hab : a.Grows b) (hbc : b.Grows c) : a.Grows c := by
  refine ⟨hab.below.trans hbc.below, hbc.keys.trans hab.keys, fun u hu => ?_⟩
  obtain ⟨t, ht, htu⟩ := hbc.each u hu
  obtain ⟨s, hs, hst⟩ := hab.each t ht
  exact ⟨s, hs, hst.trans htu⟩

theorem Slots.grows_update {f : Slot → Slot} (hf : Slots.Adds f) (slots : Slots)
    (tag name : Bytes) : slots.Grows (slots.update tag name f) := by
  refine ⟨Slots.below_update hf slots tag name, Slots.keys_update hf slots tag name, fun t ht => ?_⟩
  obtain ⟨s, hs, rfl⟩ := List.mem_map.1 ht
  refine ⟨s, hs, ?_⟩
  split
  · exact hf s
  · exact Slot.Le.refl s

theorem Slots.Throughout.grows {slots slots' : Slots} {tag name : Bytes} {P : Slot → Prop}
    (h : slots.Throughout tag name P) (hle : slots.Grows slots')
    (hP : ∀ s t : Slot, s.Le t → P s → P t) : slots'.Throughout tag name P := by
  refine ⟨hle.below.has h.known, fun t ht htag hname => ?_⟩
  obtain ⟨s, hs, hst⟩ := hle.each t ht
  exact hP s t hst (h.each s hs (hst.tag ▸ htag) (hst.param ▸ hname))

theorem handedOn_congr {slots slots' : Slots} (h : slots'.keys = slots.keys) (site : CallSite)
    (a : Arg) : handedOn slots' site a = handedOn slots site a := by
  cases a with
  | expr pos name e => simp only [handedOn, Slots.has_congr h]
  | text pos name parts => rfl
  | content pos name body => rfl

def HasContent (s : Slot) : Prop := s.content.isSome = true

theorem hasContent_mono (s t : Slot) (h : s.Le t) : HasContent s → HasContent t := h.content

/-- What an argument of a call leaves behind. -/
structure Given (site : CallSite) (a : Arg) (acc : Slots × List Handover) : Prop where
  builtin : Name.isBuiltin site.name = true → ∀ r, handedOn acc.1 site a = some r →
    acc.1.At r.tag r.name HasScalar
  content : Name.isBuiltin site.name = false → acc.1.has site.name a.name = true →
    Arg.isContent a = true → acc.1.Throughout site.name a.name HasContent
  handover : Name.isBuiltin site.name = false → acc.1.has site.name a.name = true →
    ∀ r, handedOn acc.1 site a = some r →
      ∃ h ∈ acc.2, h.caller = r ∧ h.callee = ⟨site.name, a.name⟩
  scalar : Name.isBuiltin site.name = false → acc.1.has site.name a.name = true →
    Arg.isContent a = false → handedOn acc.1 site a = none →
      acc.1.At site.name a.name HasScalar

/-- Both ends of a handover are known parameters. -/
def Known (acc : Slots × List Handover) : Prop :=
  ∀ h ∈ acc.2, acc.1.has h.caller.tag h.caller.name = true ∧
    acc.1.has h.callee.tag h.callee.name = true

/-- What the arguments of calls do to the evidence. -/
structure Binds (acc acc' : Slots × List Handover) : Prop where
  grows : acc.1.Grows acc'.1
  handovers : ∀ h ∈ acc.2, h ∈ acc'.2
  known : Known acc → Known acc'

theorem Binds.refl (acc : Slots × List Handover) : Binds acc acc :=
  ⟨Slots.Grows.refl _, fun _ h => h, id⟩

theorem Binds.trans {a b c : Slots × List Handover} (hab : Binds a b) (hbc : Binds b c) :
    Binds a c :=
  ⟨hab.grows.trans hbc.grows, fun h hh => hbc.handovers h (hab.handovers h hh),
    fun h => hbc.known (hab.known h)⟩

theorem Given.binds {site : CallSite} {a : Arg} {acc acc' : Slots × List Handover}
    (hle : Binds acc acc') (h : Given site a acc) : Given site a acc' := by
  have hhanded := handedOn_congr hle.grows.keys site a
  have hhas := Slots.has_congr hle.grows.keys site.name a.name
  refine ⟨fun hb r hr => ?_, fun hb hk hc => ?_, fun hb hk r hr => ?_, fun hb hk hc hr => ?_⟩
  · exact (h.builtin hb r (hhanded ▸ hr)).below hle.grows.below hasScalar_mono
  · exact (h.content hb (hhas ▸ hk) hc).grows hle.grows hasContent_mono
  · obtain ⟨o, ho, hcaller, hcallee⟩ := h.handover hb (hhas ▸ hk) r (hhanded ▸ hr)
    exact ⟨o, hle.handovers o ho, hcaller, hcallee⟩
  · exact (h.scalar hb (hhas ▸ hk) hc (hhanded ▸ hr)).below hle.grows.below hasScalar_mono

theorem handedOn_has {slots : Slots} {site : CallSite} {a : Arg} {r : SlotRef}
    (h : handedOn slots site a = some r) : slots.has r.tag r.name = true := by
  cases a with
  | expr pos name e =>
      simp only [handedOn] at h
      split at h
      · rename_i hcond
        cases h
        simp only [Bool.and_eq_true] at hcond
        exact hcond.2
      · cases h
  | text pos name parts => cases h
  | content pos name body => cases h

theorem binds_update {f : Slot → Slot} (hf : Slots.Adds f) (acc : Slots × List Handover)
    (tag name : Bytes) : Binds acc (acc.1.update tag name f, acc.2) := by
  have hgrows := Slots.grows_update hf acc.1 tag name
  exact ⟨hgrows, fun _ h => h, fun h o ho =>
    ⟨hgrows.below.has (h o ho).1, hgrows.below.has (h o ho).2⟩⟩

theorem bindArg_given (site : CallSite) (acc : Slots × List Handover) (a : Arg) :
    Binds acc (bindArg site acc a) ∧ Given site a (bindArg site acc a) := by
  obtain ⟨slots, handovers⟩ := acc
  have hscalar (u : Use) : Slots.Adds (·.asScalar u) := Slot.le_asScalar u
  have hcontent (u : Use) : Slots.Adds (·.asContent u) := Slot.le_asContent u
  simp only [bindArg]
  split
  · rename_i hbuiltin
    have hno {p : Prop} (h : Name.isBuiltin site.name = false) : p := by
      rw [hbuiltin] at h
      cases h
    split
    · rename_i r hr
      have hbinds := binds_update (hscalar ⟨site.file, a.pos⟩) (slots, handovers) r.tag r.name
      refine ⟨hbinds, fun _ r' hr' => ?_, hno, hno, hno⟩
      rw [handedOn_congr hbinds.grows.keys, hr] at hr'
      cases hr'
      exact Slots.at_update (hscalar _) (handedOn_has hr) (Slot.scalar_asScalar _)
    · rename_i hnone
      refine ⟨Binds.refl _, fun _ r hr => ?_, hno, hno, hno⟩
      rw [hnone] at hr
      cases hr
  · rename_i hbuiltin
    split
    · rename_i hunknown
      have hno {p : Prop} (h : slots.has site.name a.name = true) : p := by
        simp [h] at hunknown
      exact ⟨Binds.refl _, fun h => absurd h hbuiltin, fun _ h => hno h, fun _ h => hno h,
        fun _ h => hno h⟩
    · rename_i hknown
      have hknown : slots.has site.name a.name = true := by simpa using hknown
      split
      · rename_i hblock
        have hbinds := binds_update (hcontent ⟨site.file, a.pos⟩) (slots, handovers) site.name a.name
        refine ⟨hbinds, fun h => absurd h hbuiltin,
          fun _ _ _ => Slots.throughout_update (hcontent _) hknown (Slot.content_asContent _),
          fun _ _ r hr => ?_, fun _ _ h => absurd hblock (by simp [h])⟩
        cases a with
        | content pos name body => cases hr
        | text pos name parts => cases hblock
        | expr pos name e => cases hblock
      · rename_i hblock
        split
        · rename_i r hr
          refine ⟨⟨Slots.Grows.refl _, fun _ h => List.mem_append_left _ h, fun h => ?_⟩,
            fun h => absurd h hbuiltin, fun _ _ h => absurd h hblock, fun _ _ r' hr' => ?_,
            fun _ _ _ h => absurd (hr.symm.trans h) (by simp)⟩
          · refine List.forall_mem_append.2 ⟨h, fun o ho => ?_⟩
            rw [List.mem_singleton.1 ho]
            exact ⟨handedOn_has hr, hknown⟩
          · rw [hr] at hr'
            cases hr'
            exact ⟨_, List.mem_append_right _ (List.mem_singleton.2 rfl), rfl, rfl⟩
        · rename_i hnone
          have hbinds := binds_update (hscalar ⟨site.file, a.pos⟩) (slots, handovers) site.name a.name
          refine ⟨hbinds, fun h => absurd h hbuiltin, fun _ _ h => absurd h hblock,
            fun _ _ r hr => ?_,
            fun _ _ _ _ => Slots.at_update (hscalar _) hknown (Slot.scalar_asScalar _)⟩
          rw [handedOn_congr hbinds.grows.keys, hnone] at hr
          cases hr

theorem bindCalls_given (sites : List CallSite) (slots : Slots) :
    Binds (slots, []) (sites.foldl bindCall (slots, [])) ∧
      ∀ site ∈ sites, ∀ a ∈ site.args, Given site a (sites.foldl bindCall (slots, [])) :=
  foldl_keeps (R := Binds) (Q := fun site acc => ∀ a ∈ site.args, Given site a acc)
    Binds.refl Binds.trans
    (fun acc site => foldl_keeps Binds.refl Binds.trans (bindArg_given site)
      (fun hle h => Given.binds hle h) site.args acc)
    (fun hle h a ha => (h a ha).binds hle) sites (slots, [])

end TagLoom.Inference

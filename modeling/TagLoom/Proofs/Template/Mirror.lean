import TagLoom.Proofs.Template.Enclosed
import TagLoom.Proofs.Template.Indent
import TagLoom.Proofs.Template.Tree

/-!
# Reading a source inside a definition

While there are no faults, a source is read inside a definition as it is read alone: what stands in
its root stands in the body of the definition, and all positions are further into their line.
`Mirrors` says so of the parts of the reading, and is proved from part to part.
-/

namespace TagLoom.Template

open Build

/-! ## Two readings -/

/-- A position of a source inside a definition. -/
abbrev place (tag : Bytes) : Pos → Pos := Pos.indent (defStart tag).length

/-- The state in which a source is read inside a definition, next to the one in which it is read
alone. -/
def Builder.inside (tag : Bytes) (st : Builder) : Builder :=
  { st with
    source := enclosed tag st.source
    frames := st.frames.map (·.relocate (place tag)) ++
      [⟨.definition (some tag), "t:def", .start, st.root.relocate (place tag)⟩]
    root := .empty true
    defs := st.defs.map (·.relocate (place tag)) }

/-- What holds of all states while a source is read. -/
structure Steady (source file : Bytes) (st : Builder) : Prop where
  source : st.source = source
  file : st.file = file
  aborted : st.aborted = true → st.faults ≠ []

variable {α β γ δ : Type}

/-- A part of the reading of a source takes no fault back. -/
def Grows (source file : Bytes) (x : Build α) : Prop :=
  ∀ st, Steady source file st →
    Steady source file (x.run st).2 ∧ ((x.run st).2.faults = [] → st.faults = [])

/-- A part of the reading of a source goes from some state as a part of the reading inside a
definition does, if it leaves no fault; `Q` is what it does then. -/
structure MirrorsAt (tag source file : Bytes) (st : Builder) (x : Build α) (y : Build β) (g : α → β)
    (Q : Builder → α → Builder → Prop) : Prop where
  steady : Steady source file (x.run st).2
  clean : (x.run st).2.faults = [] → st.faults = [] ∧ Q st (x.run st).1 (x.run st).2 ∧
    y.run (st.inside tag) = (g (x.run st).1, (x.run st).2.inside tag)

def Mirrors (tag source file : Bytes) (x : Build α) (y : Build β) (g : α → β)
    (Q : Builder → α → Builder → Prop) : Prop :=
  ∀ st, Steady source file st → MirrorsAt tag source file st x y g Q

/-- A part of the reading that only looks. -/
abbrev Looks (tag source file : Bytes) (x : Build α) (y : Build β) (g : α → β)
    (φ : α → Prop) : Prop :=
  Mirrors tag source file x y g fun st a st' => st' = st ∧ φ a

variable {tag source file : Bytes} {x : Build α} {y : Build β} {g : α → β}
  {Q : Builder → α → Builder → Prop}

theorem Grows.pure (a : α) : Grows source file (Pure.pure a : Build α) := fun _ hst => ⟨hst, id⟩

theorem Grows.bind {k : α → Build γ} (hx : Grows source file x)
    (hk : ∀ a, Grows source file (k a)) : Grows source file (x >>= k) := by
  intro st hst
  obtain ⟨hsteady, hfirst⟩ := hx st hst
  obtain ⟨hsteady', hsecond⟩ := hk (x.run st).1 _ hsteady
  exact ⟨hsteady', fun hclean => hfirst (hsecond hclean)⟩

theorem Grows.get_bind {k : Builder → Build γ}
    (hk : ∀ st, Steady source file st → Steady source file ((k st).run st).2 ∧
      (((k st).run st).2.faults = [] → st.faults = [])) : Grows source file (get >>= k) :=
  hk

theorem Mirrors.grows (hx : Mirrors tag source file x y g Q) : Grows source file x := fun st hst =>
  ⟨(hx st hst).steady, fun hclean => ((hx st hst).clean hclean).1⟩

theorem MirrorsAt.mono {st : Builder} {R : Builder → α → Builder → Prop}
    (hx : MirrorsAt tag source file st x y g Q) (h : ∀ a st', Q st a st' → R st a st') :
    MirrorsAt tag source file st x y g R := by
  refine ⟨hx.steady, fun hclean => ?_⟩
  obtain ⟨hfaults, hQ, hrun⟩ := hx.clean hclean
  exact ⟨hfaults, h _ _ hQ, hrun⟩

theorem Mirrors.mono {R : Builder → α → Builder → Prop} (hx : Mirrors tag source file x y g Q)
    (h : ∀ st a st', Q st a st' → R st a st') : Mirrors tag source file x y g R :=
  fun st hst => (hx st hst).mono (h st)

theorem Mirrors.pure {a : α} (h : ∀ st, Q st a st) :
    Mirrors tag source file (Pure.pure a) (Pure.pure (g a)) g Q :=
  fun st hst => ⟨hst, fun hclean => ⟨hclean, h st, rfl⟩⟩

theorem Mirrors.bind {k : α → Build γ} {k' : β → Build δ} {h : γ → δ}
    {R : Builder → γ → Builder → Prop} (hx : Mirrors tag source file x y g Q)
    (hk : ∀ a, Mirrors tag source file (k a) (k' (g a)) h fun st b st' =>
      ∀ st₀, Q st₀ a st → R st₀ b st') :
    Mirrors tag source file (x >>= k) (y >>= k') h R := by
  intro st hst
  have hfirst := hx st hst
  have hsecond := hk (x.run st).1 _ hfirst.steady
  refine ⟨hsecond.steady, fun hclean => ?_⟩
  obtain ⟨hmiddle, hR, hrun'⟩ := hsecond.clean hclean
  obtain ⟨hfaults, hQ, hrun⟩ := hfirst.clean hmiddle
  refine ⟨hfaults, hR st hQ, ?_⟩
  change ((k' (y.run (st.inside tag)).1).run (y.run (st.inside tag)).2) = _
  rw [hrun]
  exact hrun'

theorem Looks.pure {a : α} {φ : α → Prop} (h : φ a) :
    Looks tag source file (Pure.pure a) (Pure.pure (g a)) g φ :=
  Mirrors.pure fun _ => ⟨rfl, h⟩

theorem Looks.same {a : α} {φ : α → Prop} (h : φ a) :
    Looks tag source file (Pure.pure a) (Pure.pure a) (fun a => a) φ :=
  Looks.pure (g := fun a => a) h

theorem Looks.concat {ι κ : Type} {r : ι → κ} {l : List ι} {a : ι} {φ : List ι → Prop}
    (h : φ (l ++ [a])) :
    Looks tag source file (Pure.pure (l ++ [a])) (Pure.pure (l.map r ++ [r a])) (List.map r) φ := by
  have hmap : l.map r ++ [r a] = (l ++ [a]).map r := by rw [List.map_append, List.map_singleton]
  rw [hmap]
  exact Looks.pure h

theorem Looks.bind_mirrors {φ : α → Prop} {k : α → Build γ} {k' : β → Build δ} {h : γ → δ}
    {R : Builder → γ → Builder → Prop} (hx : Looks tag source file x y g φ)
    (hk : ∀ a, Mirrors tag source file (k a) (k' (g a)) h fun st b st' => φ a → R st b st') :
    Mirrors tag source file (x >>= k) (y >>= k') h R := by
  refine Mirrors.bind hx fun a => (hk a).mono fun st b st' hR st₀ hlook => ?_
  obtain ⟨rfl, hφ⟩ := hlook
  exact hR hφ

theorem Looks.bind {φ : α → Prop} {k : α → Build γ} {k' : β → Build δ} {h : γ → δ} {ψ : γ → Prop}
    (hx : Looks tag source file x y g φ)
    (hk : ∀ a, Looks tag source file (k a) (k' (g a)) h fun b => φ a → ψ b) :
    Looks tag source file (x >>= k) (y >>= k') h ψ :=
  hx.bind_mirrors fun a => (hk a).mono fun _ _ _ hlook hφ => ⟨hlook.1, hlook.2 hφ⟩

theorem Looks.foldlM {ι κ : Type} {u : α → ι → Build α} {u' : β → κ → Build β} {s : ι → κ}
    (l : List ι)
    (hu : ∀ a, ∀ c ∈ l, Looks tag source file (u a c) (u' (g a) (s c)) g fun _ => True) (a : α) :
    Looks tag source file (l.foldlM u a) ((l.map s).foldlM u' (g a)) g fun _ => True := by
  induction l generalizing a with
  | nil => exact Looks.pure trivial
  | cons c l ih =>
      rw [List.map_cons, List.foldlM_cons, List.foldlM_cons]
      refine Looks.bind (hu a c List.mem_cons_self) fun b => ?_
      refine (ih (fun a d hd => hu a d (List.mem_cons_of_mem _ hd)) b).mono ?_
      exact fun _ _ _ h => ⟨h.1, fun _ => trivial⟩

theorem Looks.foldlM_same {ι : Type} {u : α → ι → Build α} {u' : β → ι → Build β} (l : List ι)
    (hu : ∀ a, ∀ c ∈ l, Looks tag source file (u a c) (u' (g a) c) g fun _ => True) (a : α) :
    Looks tag source file (l.foldlM u a) (l.foldlM u' (g a)) g fun _ => True := by
  have hfold := Looks.foldlM (s := fun c => c) l hu a
  rwa [List.map_id'] at hfold

theorem Mirrors.get_bind {k : Builder → Build γ} {k' : Builder → Build δ} {h : γ → δ}
    {R : Builder → γ → Builder → Prop}
    (hk : ∀ st, Steady source file st →
      MirrorsAt tag source file st (k st) (k' (st.inside tag)) h R) :
    Mirrors tag source file (get >>= k) (get >>= k') h R :=
  fun st hst => ⟨(hk st hst).steady, (hk st hst).clean⟩

theorem Mirrors.modify {u u' : Builder → Builder} {Q : Builder → PUnit → Builder → Prop}
    (hsteady : ∀ st, (u st).source = st.source ∧ (u st).file = st.file ∧
      (u st).aborted = st.aborted ∧ (u st).faults = st.faults)
    (h : ∀ st, Q st ⟨⟩ (u st) ∧ u' (st.inside tag) = (u st).inside tag) :
    Mirrors tag source file (modify u) (modify u') (fun a => a) Q := by
  intro st hst
  obtain ⟨hsource, hfile, haborted, hfaults⟩ := hsteady st
  refine ⟨⟨hsource.trans hst.source, hfile.trans hst.file, ?_⟩, fun hclean => ⟨?_, (h st).1, ?_⟩⟩
  · change (u st).aborted = true → (u st).faults ≠ []
    rw [haborted, hfaults]
    exact hst.aborted
  · exact hfaults.symm.trans hclean
  · exact congrArg (Prod.mk _) (h st).2

/-! ## Faults -/

theorem fault_bind_ne_nil {st : Builder} (hst : Steady source file st) (pos : Pos) (e : Fault)
    {k : Unit → Build γ} (hk : Grows source file (k ())) :
    Steady source file ((Build.fault pos e >>= k).run st).2 ∧
      ((Build.fault pos e >>= k).run st).2.faults ≠ [] := by
  have hfaults : ((Build.fault pos e).run st).2.faults ≠ [] := by
    change (if st.aborted then st else _).faults ≠ []
    split
    · rename_i haborted
      exact hst.aborted haborted
    split
    · exact List.cons_ne_nil _ _
    · exact List.cons_ne_nil _ _
  have hsteady : Steady source file ((Build.fault pos e).run st).2 := by
    refine ⟨?_, ?_, fun _ => hfaults⟩
    · change (if st.aborted then st else _).source = source
      repeat' split
      all_goals exact hst.source
    · change (if st.aborted then st else _).file = file
      repeat' split
      all_goals exact hst.file
  obtain ⟨hsteady', hgrows⟩ := hk _ hsteady
  exact ⟨hsteady', fun hclean => hfaults (hgrows hclean)⟩

theorem Mirrors.fault_bind (pos : Pos) (e : Fault) {k : Unit → Build γ} {y : Build β} {g : γ → β}
    {R : Builder → γ → Builder → Prop} (hk : Grows source file (k ())) :
    Mirrors tag source file (Build.fault pos e >>= k) y g R := by
  intro st hst
  obtain ⟨hsteady, hfaults⟩ := fault_bind_ne_nil hst pos e hk
  exact ⟨hsteady, fun hclean => absurd hclean hfaults⟩

theorem Mirrors.fault (pos : Pos) (e : Fault) {y : Build β} {g : Unit → β}
    {Q : Builder → Unit → Builder → Prop} : Mirrors tag source file (Build.fault pos e) y g Q := by
  intro st hst
  obtain ⟨hsteady, hfaults⟩ := fault_bind_ne_nil hst pos e (Grows.pure ())
  exact ⟨hsteady, fun hclean => absurd hclean hfaults⟩

theorem grows_fault (pos : Pos) (e : Fault) : Grows source file (Build.fault pos e) := by
  intro st hst
  obtain ⟨hsteady, hfaults⟩ := fault_bind_ne_nil hst pos e (Grows.pure ())
  exact ⟨hsteady, fun hclean => absurd hclean hfaults⟩

theorem Mirrors.fault_pure (pos : Pos) (e : Fault) {a : γ} {y : Build β} {g : γ → β}
    {R : Builder → γ → Builder → Prop} :
    Mirrors tag source file (do Build.fault pos e; Pure.pure a) y g R :=
  Mirrors.fault_bind pos e (Grows.pure a)

theorem Mirrors.faultAt (offset : Nat) (e : Fault) {k : Build γ} {y : Build β} {g : γ → β}
    {R : Builder → γ → Builder → Prop} (hk : Grows source file k) :
    Mirrors tag source file (do Build.fault (← Build.posOf offset) e; k) y g R := by
  intro st hst
  obtain ⟨hsteady, hfaults⟩ := fault_bind_ne_nil hst (Pos.ofOffset st.source offset) e
    (k := fun _ => k) hk
  exact ⟨hsteady, fun hclean => absurd hclean hfaults⟩

theorem Mirrors.faultAt_pure (offset : Nat) (e : Fault) {a : γ} {y : Build β} {g : γ → β}
    {R : Builder → γ → Builder → Prop} :
    Mirrors tag source file (do Build.fault (← Build.posOf offset) e; Pure.pure a) y g R :=
  Mirrors.faultAt offset e (Grows.pure a)

/-! ## What is in a root -/

def Body.Filled (b : Body) : Prop := b.decls ≠ [] ∨ Node.allBlank b.nodes = false

/-- Something of the root was read. -/
def Begun (st : Builder) : Prop := st.frames ≠ [] ∨ st.root.Filled

/-- What an element of the root becomes part of it when it is closed without faults. -/
def Opened.Lands : Opened → Prop
  | .definition _ | .slot _ | .param none | .cond none _ | .loop none => False
  | _ => True

/-- The outermost open element becomes part of the root. -/
def Landed : List Frame → Prop
  | [] => True
  | [f] => f.kind.Lands
  | _ :: f :: fs => Landed (f :: fs)

theorem Landed.replace {f f' : Frame} {fs : List Frame} (h : Landed (f :: fs))
    (hf : f.kind.Lands → f'.kind.Lands) : Landed (f' :: fs) := by
  cases fs with
  | nil => exact hf h
  | cons f fs => exact h

theorem Landed.tail {f : Frame} {fs : List Frame} (h : Landed (f :: fs)) :
    Landed fs ∧ (fs = [] → f.kind.Lands) := by
  cases fs with
  | nil => exact ⟨trivial, fun _ => h⟩
  | cons f fs => exact ⟨h, nofun⟩

theorem Landed.cons {f : Frame} {fs : List Frame} (h : Landed fs) (hf : fs = [] → f.kind.Lands) :
    Landed (f :: fs) := by
  cases fs with
  | nil => exact hf rfl
  | cons f fs => exact h

theorem Body.Filled.add {b : Body} {n : Node} (h : n.isBlankLiteral = false ∨ b.Filled) :
    (b.add n).Filled := by
  have happend (ns : List Node) (hns : n.isBlankLiteral = false ∨ Node.allBlank ns = false) :
      Node.allBlank (ns ++ [n]) = false := by
    rw [Node.allBlank, List.all_append, Bool.and_eq_false_iff]
    exact hns.symm.imp id fun hn => by simp [hn]
  have hkept : b.decls ≠ [] ∨ Node.allBlank (b.nodes ++ [n]) = false := by
    rcases h with hn | hdecls | hnodes
    · exact .inr (happend _ (.inl hn))
    · exact .inl hdecls
    · exact .inr (happend _ (.inr hnodes))
  unfold Body.add
  split
  · split
    · exact hkept
    · split
      · exact hkept
      · rename_i hdecls
        exact .inl fun hnil => hdecls (by rw [hnil]; rfl)
  · exact hkept

theorem Body.Filled.addDecl {b b' : Body} {e : Declaration} (h : b.addDecl e = .ok b') :
    b'.Filled := by
  unfold Body.addDecl at h
  split at h
  · cases h
  split at h
  · cases h
  split at h
  · cases h
  · cases h
    exact .inl (List.append_ne_nil_of_right_ne_nil _ (List.cons_ne_nil _ _))

/-! ## Single actions -/

theorem isPlain_defStart {tag : Bytes} (htag : Name.isTag tag = true) :
    Pos.IsPlain (defStart tag) := by
  have hends : Pos.IsPlain "<t:def name=\"" ∧ Pos.IsPlain "\">" := by
    unfold Pos.IsPlain
    decide +kernel
  have hmarks : 'a'.toUInt8 = 97 ∧ 'z'.toUInt8 = 122 ∧ 'A'.toUInt8 = 65 ∧ 'Z'.toUInt8 = 90 ∧
      '0'.toUInt8 = 48 ∧ '9'.toUInt8 = 57 ∧ '_'.toUInt8 = 95 ∧ '\n'.toUInt8 = 10 := by decide
  have htag : Pos.IsPlain tag := by
    intro c hc
    have hident := isStart_or_isDigit htag c hc
    simp only [Name.isStart, Bytes.isLetter, Bytes.isLower, Bytes.isUpper, Bytes.isDigit, hmarks,
      Bool.or_eq_true, Bool.and_eq_true, decide_eq_true_eq, beq_iff_eq] at hident ⊢
    grind
  simp only [defStart, Pos.IsPlain, List.mem_append]
  rintro c ((hc | hc) | hc)
  · exact hends.1 c hc
  · exact htag c hc
  · exact hends.2 c hc

theorem Mirrors.posOf_bind (htag : Name.isTag tag = true) {offset : Nat}
    (h : offset ≤ source.length) {k : Pos → Build γ} {k' : Pos → Build δ} {u : γ → δ}
    {R : Builder → γ → Builder → Prop}
    (hk : Mirrors tag source file (k (Pos.ofOffset source offset))
      (k' (place tag (Pos.ofOffset source offset))) u R) :
    Mirrors tag source file (posOf offset >>= k)
      (posOf (offset + (defStart tag).length) >>= k') u R := by
  intro st hst
  have hpos : Pos.ofOffset (enclosed tag st.source) (offset + (defStart tag).length) =
      place tag (Pos.ofOffset source offset) := by
    rw [hst.source]
    exact Pos.ofOffset_append (isPlain_defStart htag) h defEnd
  have hrest := hk st hst
  rw [← hpos, ← hst.source] at hrest
  exact ⟨hst.source ▸ hrest.steady, hrest.clean⟩

theorem mirrors_modifyBody {u u' : Body → Body}
    (hu : ∀ b, u' (b.relocate (place tag)) = (u b).relocate (place tag)) :
    Mirrors tag source file (modifyBody u) (modifyBody u') (fun a => a) fun st _ st' =>
      (Landed st.frames → Landed st'.frames) ∧
        ((st.frames = [] → (u st.root).Filled) → Begun st') := by
  refine Mirrors.modify (fun st => ?_) fun st => ?_
  · split
    · exact ⟨rfl, rfl, rfl, rfl⟩
    · exact ⟨rfl, rfl, rfl, rfl⟩
  · cases hframes : st.frames with
    | nil =>
        refine ⟨⟨fun _ => ?_, fun hfilled => .inr (hfilled rfl)⟩, ?_⟩
        · simp [Landed]
        · simp [Builder.inside, hframes, Frame.relocate, hu]
    | cons f fs =>
        refine ⟨⟨fun hlanded => hlanded.replace id, fun _ => .inl (List.cons_ne_nil _ _)⟩, ?_⟩
        simp [Builder.inside, hframes, Frame.relocate, hu]

theorem mirrors_addNode {n : Node} (hn : HasLine n) :
    Mirrors tag source file (addNode n) (addNode (n.relocate (place tag))) (fun a => a)
      fun st _ st' => (Landed st.frames → Landed st'.frames) ∧
        (n.isBlankLiteral = false ∨ Begun st → Begun st') := by
  refine (mirrors_modifyBody fun b => b.add_indent hn).mono fun st _ st' h =>
    ⟨h.1, fun hbegun => h.2 ?_⟩
  intro hframes
  refine Body.Filled.add (hbegun.imp_right fun hbegun => ?_)
  exact hbegun.resolve_left fun hne => hne hframes

theorem looks_currentBody :
    Looks tag source file currentBody currentBody (·.relocate (place tag)) fun _ => True := by
  refine fun st hst => ⟨hst, fun hclean => ⟨hclean, ⟨rfl, trivial⟩, ?_⟩⟩
  refine congrArg (Prod.mk · _) ?_
  change ((st.inside tag).frames.head?.map (·.body)).getD (st.inside tag).root =
    ((st.frames.head?.map (·.body)).getD st.root).relocate (place tag)
  cases hframes : st.frames with
  | nil => simp [Builder.inside, hframes]
  | cons f fs => simp [Builder.inside, hframes, Frame.relocate]

theorem mirrors_addDecl (e : Declaration) :
    Mirrors tag source file (addDecl e) (addDecl (e.relocate (place tag))) (fun a => a)
      fun st _ st' => (Landed st.frames → Landed st'.frames) ∧ Begun st' := by
  refine Looks.bind_mirrors looks_currentBody fun b => ?_
  cases hadd : b.addDecl e with
  | ok b' =>
      dsimp only
      rw [Body.addDecl_relocate hadd]
      exact (mirrors_modifyBody (u := fun _ => b') fun _ => rfl).mono fun st _ st' h _ =>
        ⟨h.1, h.2 fun _ => Body.Filled.addDecl hadd⟩
  | error e => exact Mirrors.fault _ _

/-! ## Attributes -/

theorem findAttr_shift (d : Nat) (attrs : List Attr) (key : Bytes) :
    findAttr (attrs.map (Attr.shift d)) key = (findAttr attrs key).map (Attr.shift d) := by
  rw [findAttr, List.find?_map]
  rfl

theorem looks_knownAttrs (element : Bytes) (allowed : List Bytes) (attrs : List Attr) (d : Nat) :
    Looks tag source file (knownAttrs element allowed attrs)
      (knownAttrs element allowed (attrs.map (Attr.shift d))) (List.map (Attr.shift d))
      fun _ => True := by
  refine Looks.foldlM (g := List.map (Attr.shift d)) (s := Attr.shift d) attrs
    (fun kept a _ => ?_) []
  have hany : (kept.map (Attr.shift d)).any (·.name == (a.shift d).name) =
      kept.any (·.name == a.name) := List.any_map
  rw [hany]
  change Looks tag source file _ (if (!allowed.contains a.name) = true then _ else _) _ _
  split
  · exact Mirrors.faultAt_pure _ _
  split
  · exact Mirrors.faultAt_pure _ _
  · exact Looks.concat trivial

theorem looks_nameAttr (element : Bytes) (pos pos' : Pos) (attrs : List Attr) (key : Bytes)
    (required : Bool) (valid : Bytes → Bool) (d : Nat) :
    Looks tag source file (nameAttr element pos attrs key required valid)
      (nameAttr element pos' (attrs.map (Attr.shift d)) key required valid) (fun a => a)
      fun r => ∃ n, r = some n ∧ (required = true → n ≠ none) ∧
        (findAttr attrs key = none → n = none) := by
  unfold nameAttr
  rw [findAttr_shift]
  cases findAttr attrs key with
  | none =>
      dsimp only [Option.map_none]
      split
      · exact Mirrors.fault_pure _ _
      · rename_i hrequired
        exact Looks.same ⟨none, rfl, fun h => absurd h hrequired, fun _ => rfl⟩
  | some a =>
      obtain ⟨offset, name, value⟩ := a
      cases value with
      | quoted base value =>
          dsimp only [Option.map_some, Attr.shift, AttrValue.shift]
          split
          · exact Looks.same ⟨some value, rfl, fun _ => nofun, nofun⟩
          · exact Mirrors.faultAt_pure _ _
      | _ => exact Mirrors.faultAt_pure _ _

theorem looks_exprAttr (element : Bytes) (pos pos' : Pos) (attrs : List Attr) (key : Bytes)
    (required : Bool) (d : Nat) :
    Looks tag source file (exprAttr element pos attrs key required)
      (exprAttr element pos' (attrs.map (Attr.shift d)) key required) (fun a => a)
      fun r => required = true ∨ findAttr attrs key ≠ none → r ≠ none := by
  unfold exprAttr
  rw [findAttr_shift]
  cases findAttr attrs key with
  | none =>
      dsimp only [Option.map_none]
      split
      · exact Mirrors.fault_pure _ _
      · rename_i hrequired
        exact Looks.same fun h => absurd rfl (h.resolve_left hrequired)
  | some a =>
      obtain ⟨offset, name, value⟩ := a
      cases value with
      | bare => exact Mirrors.faultAt_pure _ _
      | _ =>
          dsimp only [Option.map_some, Attr.shift, AttrValue.shift]
          split
          · exact Mirrors.faultAt_pure _ _
          split
          · exact Looks.same fun _ => nofun
          · exact Mirrors.faultAt_pure _ _

def Piece.offset : Piece → Nat
  | .literal offset _ | .interpolation offset _ => offset

theorem offset_of_mem_consLiteral {offset n : Nat} {text : Bytes} {pieces : List Piece}
    (ho : offset ≤ n) (h : ∀ p ∈ pieces, p.offset ≤ n) :
    ∀ p ∈ consLiteral offset text pieces, p.offset ≤ n := by
  unfold consLiteral
  split
  · exact List.forall_mem_cons.2 ⟨ho, (List.forall_mem_cons.1 h).2⟩
  · exact List.forall_mem_cons.2 ⟨ho, h⟩

theorem offset_of_mem_splitText (offset total : Nat) (s : Bytes)
    (h : s = [] ∨ offset + s.length = total) : ∀ p ∈ splitText offset s, p.offset ≤ total := by
  fun_induction splitText offset s with
  | case1 => simp
  | case2 offset c rest hc ih =>
      obtain rfl := h.resolve_left (List.cons_ne_nil _ _)
      refine offset_of_mem_consLiteral (Nat.le_add_right ..) (ih ?_)
      cases rest with
      | nil => exact .inl rfl
      | cons d rest =>
          refine .inr ?_
          simp only [List.drop_succ_cons, List.drop_zero, List.length_cons]
          omega
  | case3 offset c rest h hc n ih =>
      obtain rfl := h.resolve_left (List.cons_ne_nil _ _)
      refine List.forall_mem_cons.2 ⟨Nat.le_add_right .., ih ?_⟩
      by_cases hle : n ≤ rest.length
      · refine .inr ?_
        rw [List.length_drop, List.length_cons]
        omega
      · exact .inl (List.drop_eq_nil_of_le (by omega))
  | case4 offset c rest hc hbrace ih =>
      obtain rfl := h.resolve_left (List.cons_ne_nil _ _)
      refine offset_of_mem_consLiteral (Nat.le_add_right ..) (ih (.inr ?_))
      rw [List.length_cons]
      omega

theorem looks_textParts (htag : Name.isTag tag = true) {base : Nat} {value : Bytes}
    (h : base + value.length ≤ source.length) :
    Looks tag source file (textParts base value) (textParts (base + (defStart tag).length) value)
      (List.map (Part.relocate (place tag))) fun _ => True := by
  refine Looks.foldlM_same (g := List.map (Part.relocate (place tag))) _
    (fun parts piece hpiece => ?_) []
  have hoffset := offset_of_mem_splitText 0 value.length value (.inr (Nat.zero_add _)) piece hpiece
  have hshift (offset : Nat) :
      base + (defStart tag).length + offset = base + offset + (defStart tag).length :=
    Nat.add_right_comm ..
  cases piece with
  | literal offset s =>
      dsimp only
      rw [hshift]
      refine Mirrors.posOf_bind htag (Nat.le_trans (Nat.add_le_add_left hoffset base) h) ?_
      exact Looks.concat (r := Part.relocate (place tag)) (a := .literal _ s) trivial
  | interpolation offset text =>
      dsimp only
      rw [hshift]
      refine Mirrors.posOf_bind htag (Nat.le_trans (Nat.add_le_add_left hoffset base) h) ?_
      split
      · exact Mirrors.fault_pure _ _
      split
      · rename_i e he
        exact Looks.concat (r := Part.relocate (place tag)) (a := .interpolation _ e) trivial
      · exact Mirrors.fault_pure _ _

theorem looks_attrArgs (htag : Name.isTag tag = true) {attrs : List Attr}
    (h : ∀ a ∈ attrs, a.Within source.length) :
    Looks tag source file (attrArgs attrs) (attrArgs (attrs.map (Attr.shift (defStart tag).length)))
      (List.map (Arg.relocate (place tag))) fun _ => True := by
  refine Looks.foldlM (g := List.map (Arg.relocate (place tag)))
    (s := Attr.shift (defStart tag).length) attrs (fun args a ha => ?_) []
  obtain ⟨hstart, hvalue⟩ := h a ha
  refine Mirrors.posOf_bind htag hstart ?_
  obtain ⟨offset, name, value⟩ := a
  cases value with
  | bare => exact Looks.concat (r := Arg.relocate (place tag)) (a := .expr _ name .yes) trivial
  | braced text =>
      dsimp only [Attr.shift, AttrValue.shift]
      split
      · rename_i e he
        exact Looks.concat (r := Arg.relocate (place tag)) (a := .expr _ name e) trivial
      · exact Mirrors.fault_pure _ _
  | quoted base value =>
      refine Looks.bind (looks_textParts htag (hvalue base value rfl)) fun parts => ?_
      exact Looks.concat (r := Arg.relocate (place tag)) (a := .text _ name parts) fun _ => trivial

end TagLoom.Template

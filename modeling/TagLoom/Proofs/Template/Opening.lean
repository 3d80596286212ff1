import TagLoom.Template.Parser
import TagLoom.Proofs.Stateful

/-!
# What tags open

A tag is read from its name and its attributes.  This notes faults and asks for places in the source,
and beside that it leaves the state of reading alone, so it keeps every condition that a fault at the
tag, at one of its attributes or at a brace in a quoted value does not touch.
-/

namespace TagLoom

def Expression.IsRead (e : Expression) : Prop := ∃ s, Expression.parse s = .ok e

private theorem Expression.reads_yes : (match Expr.parse "true" with
    | .ok (.bool 0 true) => true
    | _ => false) = true := by
  decide +kernel

theorem Expression.isRead_yes : Expression.yes.IsRead := by
  have hparse := reads_yes
  have htrim : Unicode.trim "true" = Bytes.ofString "true" := by decide +kernel
  refine ⟨"true", ?_⟩
  rw [Expression.parse, htrim, Expression.ofSource]
  split at hparse
  · rename_i htree
    rw [htree]
    rfl
  · cases hparse

namespace Template

def builtinElements : List Bytes := ["t:def", "t:param", "t:slot", "t:if", "t:else", "t:for"]

/-- A part of a quoted value that starts at an offset of a source. -/
inductive PartOf (source : Bytes) (base : Nat) (value : Bytes) : Part → Prop where
  | literal {offset : Nat} {s : Bytes} (h : .literal offset s ∈ splitText 0 value) :
      PartOf source base value (.literal (Pos.ofOffset source (base + offset)) s)
  | interpolation {offset : Nat} {s : Bytes} {e : Expression}
      (h : .interpolation offset s ∈ splitText 0 value) (he : Expression.parse s = .ok e) :
      PartOf source base value (.interpolation (Pos.ofOffset source (base + offset)) e)

/-- The argument that an attribute of an invocation binds. -/
inductive ArgOf (source : Bytes) (a : Attr) : Arg → Prop where
  | expr {e : Expression} (he : e.IsRead) :
      ArgOf source a (.expr (Pos.ofOffset source a.offset) a.name e)
  | text {base : Nat} {value : Bytes} {parts : List Part} (hvalue : a.value = .quoted base value)
      (hparts : ∀ p ∈ parts, PartOf source base value p) :
      ArgOf source a (.text (Pos.ofOffset source a.offset) a.name parts)

/-- What a tag with some name and attributes opens, and whether declarations may stand in it. -/
inductive OpenedBy (source : Bytes) (pos : Pos) (name : Bytes) (attrs : List Attr) :
    Opened × Bool → Prop where
  | definition {tag : Option Bytes} (hname : name = Bytes.ofString "t:def")
      (htag : ∀ n, tag = some n → Name.isTag n = true) :
      OpenedBy source pos name attrs (.definition tag, true)
  | param {decl : Option Declaration} (hname : name = Bytes.ofString "t:param")
      (hdecl : ∀ d, decl = some d → d.pos = pos ∧ Name.isIdent d.name = true ∧
        ∀ e, d.default = some e → e.IsRead) :
      OpenedBy source pos name attrs (.param decl, false)
  | slot {slot : Option Bytes} (hname : name = Bytes.ofString "t:slot")
      (hslot : ∀ n, slot = some n → Name.isIdent n = true) :
      OpenedBy source pos name attrs (.slot slot, false)
  | cond {test : Option Expression} (hname : name = Bytes.ofString "t:if")
      (htest : ∀ e, test = some e → e.IsRead) :
      OpenedBy source pos name attrs (.cond test none, false)
  | otherwise (hname : name = Bytes.ofString "t:else") :
      OpenedBy source pos name attrs (.otherwise, false)
  | loop {head : Option (Expression × Bytes × Bytes)} (hname : name = Bytes.ofString "t:for")
      (hhead : ∀ e item index, head = some (e, item, index) → e.IsRead ∧
        Name.isIdent item = true ∧ (index = [] ∨ Name.isIdent index = true ∧ index ≠ item)) :
      OpenedBy source pos name attrs (.loop head, false)
  | invocation {args : List Arg} (hname : name ∉ builtinElements)
      (hargs : ∀ arg ∈ args, ∃ a ∈ attrs, ArgOf source a arg) :
      OpenedBy source pos name attrs (.invocation args [], false)

def Builder.note (pos : Pos) (f : Fault) (st : Builder) : Builder :=
  if st.aborted then st
  else if maxFaults ≤ st.faults.length + 1 then
    { st with faults := (pos, .tooMany) :: st.faults, aborted := true }
  else { st with faults := (pos, f) :: st.faults }

/-- A condition on the reading of a source that faults at some places do not touch. -/
structure Bears (source : Bytes) (P : Pos → Prop) (I : Builder → Prop) : Prop where
  source : ∀ st, I st → st.source = source
  note : ∀ st pos f, P pos → f ≠ .tooMany → I st → I (st.note pos f)

/-- A condition on the reading of a source that faults do not touch. -/
structure Blind (source : Bytes) (I : Builder → Prop) : Prop where
  source : ∀ st, I st → st.source = source
  faults : ∀ st faults aborted, faults ≠ [] → I st → I { st with faults, aborted }

/-- Where faults of an attribute may be. -/
structure Attr.Sited (source : Bytes) (P : Pos → Prop) (a : Attr) : Prop where
  name : P (Pos.ofOffset source a.offset)
  value : ∀ base v, a.value = .quoted base v → ∀ o s, .interpolation o s ∈ splitText 0 v →
    P (Pos.ofOffset source (base + o))

variable {P : Pos → Prop} {I : Builder → Prop} {source : Bytes} {α : Type} {attrs : List Attr}

theorem Blind.note (hI : Blind source I) {st : Builder} (hst : I st) (pos : Pos) (f : Fault) :
    I (st.note pos f) := by
  unfold Builder.note
  repeat' split
  · exact hst
  · exact hI.faults st _ _ (List.cons_ne_nil _ _) hst
  · exact hI.faults st _ st.aborted (List.cons_ne_nil _ _) hst

theorem Blind.bears (hI : Blind source I) : Bears source (fun _ => True) I where
  source := hI.source
  note _ pos f _ _ hst := hI.note hst pos f

theorem Attr.sited_true (source : Bytes) (a : Attr) : a.Sited source fun _ => True :=
  ⟨trivial, fun _ _ _ _ _ _ => trivial⟩

/-! ## Runs of single actions -/

theorem modifyBody_cases (u : Body → Body) (st : Builder) :
    (st.frames = [] ∧ (Build.modifyBody u).run st = ((), { st with root := u st.root })) ∨
    ∃ f fs, st.frames = f :: fs ∧
      (Build.modifyBody u).run st =
        ((), { st with frames := { f with body := u f.body } :: fs }) := by
  obtain ⟨_, _, frames, _, _, _, _⟩ := st
  cases frames with
  | nil => exact .inl ⟨rfl, rfl⟩
  | cons f fs => exact .inr ⟨f, fs, rfl, rfl⟩

private theorem run_addDecl (d : Declaration) (st : Builder) :
    (Build.addDecl d).run st =
      (match ((st.frames.head?.map (·.body)).getD st.root).addDecl d with
      | .ok b => Build.modifyBody fun _ => b
      | .error e => Build.fault d.pos e : Build Unit).run st :=
  rfl

theorem addDecl_cases (d : Declaration) (st : Builder) :
    (∃ e, ((st.frames.head?.map (·.body)).getD st.root).addDecl d = .error e ∧
      (Build.addDecl d).run st = (Build.fault d.pos e).run st) ∨
    ∃ b, ((st.frames.head?.map (·.body)).getD st.root).addDecl d = .ok b ∧
      (Build.addDecl d).run st = (Build.modifyBody fun _ => b).run st := by
  rw [run_addDecl]
  cases ((st.frames.head?.map (·.body)).getD st.root).addDecl d with
  | error e => exact .inl ⟨e, rfl, rfl⟩
  | ok b => exact .inr ⟨b, rfl, rfl⟩

theorem run_closeTop_nil {st : Builder} (h : st.frames = []) : closeTop.run st = ((), st) := by
  obtain ⟨_, _, frames, _, _, _, _⟩ := st
  subst h
  rfl

theorem run_closeTop {st : Builder} {f : Frame} {fs : List Frame} (h : st.frames = f :: fs) :
    closeTop.run st = (deliver f).run { st with frames := fs } := by
  obtain ⟨_, _, frames, _, _, _, _⟩ := st
  subst h
  rfl

theorem closeAll_of_nil {st : Builder} (h : st.frames = []) (fuel : Nat) :
    (closeAll (fuel + 1)).run st = ((), st) := by
  obtain ⟨_, _, frames, _, _, _, _⟩ := st
  subst h
  rfl

theorem closeAll_of_cons {st : Builder} {f : Frame} {fs : List Frame} (h : st.frames = f :: fs)
    (fuel : Nat) : (closeAll (fuel + 1)).run st =
      (do Build.fault f.pos (.unclosed f.name); closeTop; closeAll fuel : Build Unit).run st := by
  obtain ⟨_, _, frames, _, _, _, _⟩ := st
  subst h
  rfl

/-- A closed declaration is appended, also when it holds something and that is a fault. -/
theorem ensures_deliver_param {pre : Builder → Prop} {post : Unit → Builder → Prop}
    {decl : Option Declaration} (name : Bytes) {pos : Pos} {body : Body}
    (hfault : Keeps pre (Build.fault pos .fullParam) fun _ => True)
    (hnone : Ensures pre (pure ()) post)
    (hsome : ∀ d, decl = some d → Ensures pre (Build.addDecl d) post) :
    Ensures pre (deliver ⟨.param decl, name, pos, body⟩) post := by
  cases decl with
  | none => exact Keeps.ite_bind (c := !Node.allBlank body.nodes) hfault hnone
  | some d => exact Keeps.ite_bind (c := !Node.allBlank body.nodes) hfault (hsome d rfl)

/-- A closed conditional is a node, also when something behind its else branch is a fault. -/
theorem ensures_deliver_cond {pre : Builder → Prop} {post : Unit → Builder → Prop}
    {test : Option Expression} {otherwise : Option (List Node × Nat)} (name : Bytes) {pos : Pos}
    {body : Body}
    (hcheck : ∀ n, Keeps pre (checkAfterElse (body.nodes.drop n)) fun _ => True)
    (hnone : Ensures pre (pure ()) post)
    (hsome : ∀ e, test = some e →
      Ensures pre (Build.addNode (.cond pos e body.nodes (otherwise.map (·.1)))) post) :
    Ensures pre (deliver ⟨.cond test otherwise, name, pos, body⟩) post := by
  have hnode (k : Build Unit) (h : Ensures pre k post) (n : Nat) :
      Ensures pre (do checkAfterElse (body.nodes.drop n); k) post :=
    (hcheck n).bind_ensures fun _ _ => h
  rcases otherwise with _ | ⟨other, n⟩ <;> rcases test with _ | e
  · exact hnone
  · exact hsome e rfl
  · exact hnode _ hnone n
  · exact hnode _ (hsome e rfl) n

theorem mem_of_findAttr {key : Bytes} {a : Attr} (h : findAttr attrs key = some a) : a ∈ attrs :=
  List.mem_of_find?_eq_some h

/-! ## Attributes -/

namespace Bears

theorem fault (hI : Bears source P I) {pos : Pos} (hpos : P pos) {f : Fault} (hf : f ≠ .tooMany) :
    Keeps I (Build.fault pos f) fun _ => True :=
  fun st hst => ⟨hI.note st pos f hpos hf hst, trivial⟩

theorem posOf (hI : Bears source P I) (offset : Nat) :
    Keeps I (Build.posOf offset) (· = Pos.ofOffset source offset) :=
  Keeps.get_bind fun st hst => Keeps.pure (by rw [hI.source st hst])

theorem faultAt (hI : Bears source P I) {offset : Nat} (hoffset : P (Pos.ofOffset source offset))
    {f : Fault} (hf : f ≠ .tooMany) {k : Build α} {Q : α → Prop} (hk : Keeps I k Q) :
    Keeps I (do Build.fault (← Build.posOf offset) f; k) Q := by
  refine (hI.posOf offset).bind fun pos hpos => ?_
  subst hpos
  exact (hI.fault hoffset hf).skip fun _ => hk

theorem knownAttrs (hI : Bears source P I) (element : Bytes) (allowed : List Bytes)
    (hattrs : ∀ a ∈ attrs, a.Sited source P) :
    Keeps I (knownAttrs element allowed attrs) fun kept => ∀ a ∈ kept, a.Sited source P := by
  refine Keeps.foldlM attrs nofun fun kept hkept a ha => ?_
  have hname := (hattrs a ha).name
  split
  · exact hI.faultAt hname (by nofun) (Keeps.pure hkept)
  split
  · exact hI.faultAt hname (by nofun) (Keeps.pure hkept)
  · exact Keeps.pure (List.forall_mem_append.2 ⟨hkept, List.forall_mem_singleton.2 (hattrs a ha)⟩)

theorem nameAttr (hI : Bears source P I) (element : Bytes) {pos : Pos} (hpos : P pos)
    (hattrs : ∀ a ∈ attrs, a.Sited source P) (key : Bytes) (required : Bool)
    (valid : Bytes → Bool) :
    Keeps I (nameAttr element pos attrs key required valid) fun r =>
      ∀ n, r = some (some n) → valid n = true := by
  unfold Template.nameAttr
  split
  · split
    · exact (hI.fault hpos (by nofun)).skip fun _ => Keeps.pure (by simp)
    · exact Keeps.pure (by simp)
  rename_i a hfind
  have hname := (hattrs a (mem_of_findAttr hfind)).name
  split
  · split
    · rename_i hvalid
      exact Keeps.pure (by simpa using hvalid)
    · exact hI.faultAt hname (by nofun) (Keeps.pure (by simp))
  · exact hI.faultAt hname (by nofun) (Keeps.pure (by simp))

theorem exprAttr (hI : Bears source P I) (element : Bytes) {pos : Pos} (hpos : P pos)
    (hattrs : ∀ a ∈ attrs, a.Sited source P) (key : Bytes) (required : Bool) :
    Keeps I (exprAttr element pos attrs key required) fun r => ∀ e, r = some e → e.IsRead := by
  unfold Template.exprAttr
  split
  · split
    · exact (hI.fault hpos (by nofun)).skip fun _ => Keeps.pure (by simp)
    · exact Keeps.pure (by simp)
  rename_i a hfind
  have hname := (hattrs a (mem_of_findAttr hfind)).name
  extract_lets value?
  clear_value value?
  split
  · exact hI.faultAt hname (by nofun) (Keeps.pure (by simp))
  · rename_i v
    split
    · rename_i e hparse
      exact Keeps.pure fun e' he' => ⟨v, by rw [hparse, Option.some.inj he']⟩
    · exact hI.faultAt hname (by nofun) (Keeps.pure (by simp))

theorem textParts (hI : Bears source P I) {base : Nat} {value : Bytes}
    (hvalue : ∀ o s, .interpolation o s ∈ splitText 0 value → P (Pos.ofOffset source (base + o))) :
    Keeps I (textParts base value) fun parts => ∀ p ∈ parts, PartOf source base value p := by
  refine Keeps.foldlM _ (by simp) fun parts hparts piece hpiece => ?_
  have happend {p : Part} (hp : PartOf source base value p) :
      ∀ q ∈ parts ++ [p], PartOf source base value q :=
    List.forall_mem_append.2 ⟨hparts, List.forall_mem_singleton.2 hp⟩
  split
  · refine (hI.posOf _).bind fun pos hpos => Keeps.pure (happend ?_)
    rw [hpos]
    exact .literal hpiece
  · refine (hI.posOf _).bind fun pos hpos => ?_
    subst hpos
    split
    · exact (hI.fault (hvalue _ _ hpiece) (by nofun)).skip fun _ => Keeps.pure hparts
    split
    · rename_i e hparse
      exact Keeps.pure (happend (.interpolation hpiece hparse))
    · exact (hI.fault (hvalue _ _ hpiece) (by nofun)).skip fun _ => Keeps.pure hparts

theorem attrArgs (hI : Bears source P I) (hattrs : ∀ a ∈ attrs, a.Sited source P) :
    Keeps I (attrArgs attrs) fun args => ∀ arg ∈ args, ∃ a ∈ attrs, ArgOf source a arg := by
  refine Keeps.foldlM attrs (by simp) fun args hargs a ha => ?_
  have happend {arg : Arg} (harg : ArgOf source a arg) :
      ∀ b ∈ args ++ [arg], ∃ a ∈ attrs, ArgOf source a b :=
    List.forall_mem_append.2 ⟨hargs, List.forall_mem_singleton.2 ⟨a, ha, harg⟩⟩
  refine (hI.posOf _).bind fun at_ hat => ?_
  subst hat
  split
  · exact Keeps.pure (happend (.expr Expression.isRead_yes))
  · rename_i s _
    split
    · rename_i e hparse
      exact Keeps.pure (happend (.expr ⟨s, hparse⟩))
    · exact (hI.fault (hattrs a ha).name (by nofun)).skip fun _ => Keeps.pure hargs
  · rename_i base value hvalue
    exact (hI.textParts ((hattrs a ha).value base value hvalue)).bind fun parts hparts =>
      Keeps.pure (happend (.text hvalue hparts))

end Bears

theorem keeps_fault (hI : Blind source I) (pos : Pos) (f : Fault) :
    Keeps I (Build.fault pos f) fun _ => True :=
  fun _ hst => ⟨hI.note hst pos f, trivial⟩

theorem keeps_posOf (hI : Blind source I) (offset : Nat) :
    Keeps I (Build.posOf offset) (· = Pos.ofOffset source offset) :=
  hI.bears.posOf offset

/-! ## Elements -/

def openDefinition (frames : List Frame) (pos : Pos) (name : Bytes) (attrs : List Attr) :
    Build (Opened × Bool) := do
  let attrs ← knownAttrs name ["name"] attrs
  let tag ← nameAttr name pos attrs "name" true Name.isTag
  if !frames.isEmpty then
    Build.fault pos .nestedDefinition
    return (.definition none, true)
  return (.definition (tag.getD none), true)

def paramType (attrs : List Attr) : Build (Option ParamType) :=
  match findAttr attrs "type" with
  | none => pure (some .unknown)
  | some a =>
      let (value, isQuoted) := match a.value with
        | .bare => (([] : Bytes), false)
        | .quoted _ v => (v, true)
        | .braced v => (v, false)
      match ParamType.ofLabel? value, isQuoted with
      | some t, true => pure (some t)
      | _, _ => do
          Build.fault (← Build.posOf a.offset) (.badParamType value)
          pure none

def paramDefault (name : Bytes) (pos : Pos) (attrs : List Attr) :
    Build (Option (Option Expression)) :=
  match findAttr attrs "default" with
  | none => pure (some none)
  | some _ => do
      match ← exprAttr name pos attrs "default" false with
      | some e => pure (some (some e))
      | none => pure none

def openParam (pos : Pos) (name : Bytes) (attrs : List Attr) : Build (Opened × Bool) := do
  let attrs ← knownAttrs name ["name", "type", "default"] attrs
  let param ← nameAttr name pos attrs "name" true Name.isIdent
  let type ← paramType attrs
  let default ← paramDefault name pos attrs
  match param, type, default with
  | some (some n), some t, some d => return (.param (some ⟨pos, n, t, d⟩), false)
  | _, _, _ => return (.param none, false)

def openSlot (frames : List Frame) (pos : Pos) (name : Bytes) (attrs : List Attr) :
    Build (Opened × Bool) := do
  let attrs ← knownAttrs name ["name"] attrs
  let slot ← nameAttr name pos attrs "name" true Name.isIdent
  match frames.head?.map (·.kind) with
  | some (Opened.invocation _ _) => return (.slot (slot.getD none), false)
  | _ =>
      Build.fault pos .straySlot
      return (.slot none, false)

def openLoop (pos : Pos) (name : Bytes) (attrs : List Attr) : Build (Opened × Bool) := do
  let attrs ← knownAttrs name ["each", "as", "index"] attrs
  let each ← exprAttr name pos attrs "each" true
  let item ← nameAttr name pos attrs "as" true Name.isIdent
  let index ← nameAttr name pos attrs "index" false Name.isIdent
  match item, index with
  | some (some i), some k =>
      if k == some i then
        match findAttr attrs "index" with
        | some a => Build.fault (← Build.posOf a.offset) .sameLoopNames
        | none => pure ()
        return (.loop none, false)
      else return (.loop (each.map fun e => (e, i, k.getD [])), false)
  | _, _ => return (.loop none, false)

theorem openElement_eq (pos : Pos) (name : Bytes) (attrs : List Attr) :
    openElement pos name attrs = (do
      let frames := (← get).frames
      if name == Bytes.ofString "t:def" then openDefinition frames pos name attrs
      else if name == Bytes.ofString "t:param" then openParam pos name attrs
      else if name == Bytes.ofString "t:slot" then openSlot frames pos name attrs
      else if name == Bytes.ofString "t:if" then
        let attrs ← knownAttrs name ["cond"] attrs
        return (.cond (← exprAttr name pos attrs "cond" true) none, false)
      else if name == Bytes.ofString "t:else" then
        let _ ← knownAttrs name [] attrs
        return (.otherwise, false)
      else if name == Bytes.ofString "t:for" then openLoop pos name attrs
      else return (.invocation (← attrArgs attrs) [], false)) := by
  unfold openElement openDefinition openParam openSlot openLoop
  refine bind_congr fun st => ?_
  extract_lets frames
  refine ite_congr rfl (fun _ => rfl) fun _ => ite_congr rfl (fun _ => ?_) fun _ => rfl
  refine bind_congr fun attrs => bind_congr fun param => ?_
  -- the type and the default are read before a shared rest, not bound to it
  extract_lets afterType
  have hafterType : afterType = fun type => paramDefault name pos attrs >>= fun default =>
      match param, type, default with
      | some (some n), some t, some d => return (.param (some ⟨pos, n, t, d⟩), false)
      | _, _, _ => return (.param none, false) := by
    funext type
    unfold paramDefault
    simp only [afterType]
    cases findAttr attrs "default" with
    | none => rfl
    | some _ =>
        rw [bind_assoc]
        refine bind_congr fun e => ?_
        cases e <;> rfl
  rw [← hafterType]
  unfold paramType
  cases findAttr attrs "type" with
  | none => rfl
  | some a =>
      obtain ⟨offset, key, value⟩ := a
      cases value with
      | bare => rfl
      | quoted _ v | braced v =>
          dsimp only
          cases ParamType.ofLabel? v <;> rfl

variable {pos : Pos} {name : Bytes}

theorem eq_some_of_getD {tag : Option (Option Bytes)} {n : Bytes} (h : tag.getD none = some n) :
    tag = some (some n) := by
  cases tag with
  | none => cases h
  | some tag => exact congrArg some h

namespace Bears

theorem paramType (hI : Bears source P I) (hattrs : ∀ a ∈ attrs, a.Sited source P) :
    Keeps I (paramType attrs) fun _ => True := by
  unfold Template.paramType
  split
  · exact Keeps.pure trivial
  rename_i a hfind
  have hname := (hattrs a (mem_of_findAttr hfind)).name
  dsimp only
  split
  · exact Keeps.pure trivial
  · exact hI.faultAt hname (by nofun) (Keeps.pure trivial)

theorem paramDefault (hI : Bears source P I) (name : Bytes) (hpos : P pos)
    (hattrs : ∀ a ∈ attrs, a.Sited source P) :
    Keeps I (paramDefault name pos attrs) fun r => ∀ e, r = some (some e) → e.IsRead := by
  unfold Template.paramDefault
  split
  · exact Keeps.pure nofun
  refine (hI.exprAttr _ hpos hattrs _ _).bind fun e he => ?_
  split
  · exact Keeps.pure fun e' he' => he e' (Option.some.inj he')
  · exact Keeps.pure nofun

theorem openDefinition (hI : Bears source P I) (hname : name = Bytes.ofString "t:def")
    (hpos : P pos) (hattrs : ∀ a ∈ attrs, a.Sited source P) (frames : List Frame) :
    Keeps I (openDefinition frames pos name attrs) (OpenedBy source pos name attrs) := by
  refine (hI.knownAttrs _ _ hattrs).bind fun kept hkept => ?_
  refine (hI.nameAttr _ hpos hkept _ _ _).bind fun tag htag => ?_
  split
  · exact (hI.fault hpos (by nofun)).skip fun _ => Keeps.pure (.definition hname nofun)
  · exact Keeps.pure (.definition hname fun n hn => htag n (eq_some_of_getD hn))

theorem openParam (hI : Bears source P I) (hname : name = Bytes.ofString "t:param")
    (hpos : P pos) (hattrs : ∀ a ∈ attrs, a.Sited source P) :
    Keeps I (openParam pos name attrs) (OpenedBy source pos name attrs) := by
  refine (hI.knownAttrs _ _ hattrs).bind fun kept hkept => ?_
  refine (hI.nameAttr _ hpos hkept _ _ _).bind fun param hparam => ?_
  refine (hI.paramType hkept).skip fun type => ?_
  refine (hI.paramDefault _ hpos hkept).bind fun default hdefault => ?_
  split
  · rename_i n t d
    refine Keeps.pure (.param hname fun decl hdecl => ?_)
    cases hdecl
    exact ⟨rfl, hparam n rfl, fun e he => hdefault e (congrArg some he)⟩
  · exact Keeps.pure (.param hname nofun)

theorem openSlot (hI : Bears source P I) (hname : name = Bytes.ofString "t:slot")
    (hpos : P pos) (hattrs : ∀ a ∈ attrs, a.Sited source P) (frames : List Frame) :
    Keeps I (openSlot frames pos name attrs) (OpenedBy source pos name attrs) := by
  refine (hI.knownAttrs _ _ hattrs).bind fun kept hkept => ?_
  refine (hI.nameAttr _ hpos hkept _ _ _).bind fun slot hslot => ?_
  split
  · exact Keeps.pure (.slot hname fun n hn => hslot n (eq_some_of_getD hn))
  · exact (hI.fault hpos (by nofun)).skip fun _ => Keeps.pure (.slot hname nofun)

theorem openLoop (hI : Bears source P I) (hname : name = Bytes.ofString "t:for")
    (hpos : P pos) (hattrs : ∀ a ∈ attrs, a.Sited source P) :
    Keeps I (openLoop pos name attrs) (OpenedBy source pos name attrs) := by
  refine (hI.knownAttrs _ _ hattrs).bind fun kept hkept => ?_
  refine (hI.exprAttr _ hpos hkept _ _).bind fun each heach => ?_
  refine (hI.nameAttr _ hpos hkept _ _ _).bind fun item hitem => ?_
  refine (hI.nameAttr _ hpos hkept _ _ _).bind fun index hindex => ?_
  have hnone : Keeps I (pure (.loop none, false) : Build (Opened × Bool))
      (OpenedBy source pos name attrs) := Keeps.pure (.loop hname nofun)
  split
  · rename_i i k
    split
    · split
      · rename_i a hfind
        exact hI.faultAt (hkept a (mem_of_findAttr hfind)).name (by nofun) hnone
      · exact hnone
    · rename_i hne
      refine Keeps.pure (.loop hname fun e item' index' hhead => ?_)
      obtain ⟨each', heach', hsame⟩ := Option.map_eq_some_iff.1 hhead
      cases hsame
      refine ⟨heach _ heach', hitem _ rfl, ?_⟩
      cases k with
      | none => exact Or.inl rfl
      | some n => exact Or.inr ⟨hindex n rfl, fun heq => hne (by simpa using heq)⟩
  · exact hnone

theorem openElement (hI : Bears source P I) (hpos : P pos) (name : Bytes)
    (hattrs : ∀ a ∈ attrs, a.Sited source P) :
    Keeps I (openElement pos name attrs) (OpenedBy source pos name attrs) := by
  rw [openElement_eq]
  refine Keeps.get_bind fun st _ => ?_
  extract_lets frames
  split
  · exact hI.openDefinition (eq_of_beq ‹_›) hpos hattrs frames
  rename_i hdef
  split
  · exact hI.openParam (eq_of_beq ‹_›) hpos hattrs
  rename_i hparam
  split
  · exact hI.openSlot (eq_of_beq ‹_›) hpos hattrs frames
  rename_i hslot
  split
  · rename_i hif
    refine (hI.knownAttrs _ _ hattrs).bind fun kept hkept => ?_
    exact (hI.exprAttr _ hpos hkept _ _).bind fun test htest =>
      Keeps.pure (.cond (eq_of_beq hif) htest)
  rename_i hif
  split
  · rename_i helse
    exact (hI.knownAttrs _ _ hattrs).bind fun _ _ => Keeps.pure (.otherwise (eq_of_beq helse))
  rename_i helse
  split
  · exact hI.openLoop (eq_of_beq ‹_›) hpos hattrs
  rename_i hfor
  have hname : name ∉ builtinElements := by
    simp only [beq_iff_eq] at hdef hparam hslot hif helse hfor
    simp [builtinElements, hdef, hparam, hslot, hif, helse, hfor]
  exact (hI.attrArgs hattrs).bind fun args hargs => Keeps.pure (.invocation hname hargs)

end Bears

theorem keeps_openElement (hI : Blind source I) (pos : Pos) (name : Bytes) (attrs : List Attr) :
    Keeps I (openElement pos name attrs) (OpenedBy source pos name attrs) :=
  hI.bears.openElement trivial name fun a _ => a.sited_true source

end Template

end TagLoom

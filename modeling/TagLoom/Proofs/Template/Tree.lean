import TagLoom.Proofs.Template.Indent
import TagLoom.Proofs.Template.Opening

/-!
# Trees of templates

Reading a template builds each node, argument and declaration from one token of the source, and
keeps it from then on.  A condition that all of them meet when they are built is therefore met all
through the tree that `Template.parse` gives, also when there are faults.
-/

namespace TagLoom

def Arg.isBlock : Arg → Bool
  | .content _ _ _ => true
  | _ => false

/-- Attributes stand before blocks, and blocks stand in the order of the source. -/
def Arg.InOrder (args : List Arg) : Prop :=
  args.Pairwise fun a b => a.isBlock = true → b.isBlock = true ∧ b.pos.before a.pos = false

structure TreeSpec where
  literal : Pos → Bytes → Prop
  interpolation : Pos → Expression → Prop
  invocation : Pos → Bytes → List Arg → Prop
  cond : Pos → Expression → Prop
  loop : Pos → Expression → Bytes → Bytes → Prop
  textArg : Pos → Bytes → List Part → Prop
  exprArg : Pos → Bytes → Expression → Prop
  block : Pos → Bytes → List Node → Prop
  decl : Declaration → Prop
  definition : Pos → Bytes → Prop

namespace TreeSpec

variable (T : TreeSpec)

mutual

/-- A node and everything inside it meet the conditions. -/
def Node : Node → Prop
  | .literal p s => T.literal p s
  | .interpolation p e _ => T.interpolation p e
  | .invocation p name args => T.invocation p name args ∧ Args args
  | .cond p e body none => T.cond p e ∧ Nodes body
  | .cond p e body (some other) => T.cond p e ∧ Nodes body ∧ Nodes other
  | .loop p e item index body => T.loop p e item index ∧ Nodes body

def Nodes : List TagLoom.Node → Prop
  | [] => True
  | n :: ns => Node n ∧ Nodes ns

def Arg : Arg → Prop
  | .text p name parts => T.textArg p name parts
  | .expr p name e => T.exprArg p name e
  | .content p name body => T.block p name body ∧ Nodes body

def Args : List TagLoom.Arg → Prop
  | [] => True
  | a :: as => Arg a ∧ Args as

end

/-- Declarations and nodes meet the conditions, and no name is declared twice. -/
structure Body (decls : List Declaration) (nodes : List TagLoom.Node) : Prop where
  met : ∀ d ∈ decls, T.decl d
  nodup : (decls.map (·.name)).Nodup
  inside : T.Nodes nodes

/-- The tags of a template meet the conditions, and only the first may be a root. -/
structure Template (t : Template) : Prop where
  bodies : ∀ d ∈ t.defs, T.Body d.decls d.body
  definitions : ∀ d ∈ t.defs, d.isRoot = false → T.definition d.pos d.name
  rootFirst : ∀ d ∈ t.defs.tail, d.isRoot = false

variable {T}

theorem nodes_iff {ns : List TagLoom.Node} : T.Nodes ns ↔ ∀ n ∈ ns, T.Node n := by
  induction ns with
  | nil => simp [Nodes]
  | cons n ns ih => simp [Nodes, ih]

theorem args_iff {as : List TagLoom.Arg} : T.Args as ↔ ∀ a ∈ as, T.Arg a := by
  induction as with
  | nil => simp [Args]
  | cons a as ih => simp [Args, ih]

theorem cond_iff {p : Pos} {e : Expression} {body : List TagLoom.Node}
    {other : Option (List TagLoom.Node)} :
    T.Node (.cond p e body other) ↔
      T.cond p e ∧ T.Nodes body ∧ ∀ ns, other = some ns → T.Nodes ns := by
  cases other with
  | none => simp [Node]
  | some ns => simp [Node]

theorem nodes_concat {ns : List TagLoom.Node} {n : TagLoom.Node} (hns : T.Nodes ns)
    (hn : T.Node n) : T.Nodes (ns ++ [n]) := by
  rw [nodes_iff] at hns ⊢
  exact List.forall_mem_append.2 ⟨hns, List.forall_mem_singleton.2 hn⟩

theorem args_append {as bs : List TagLoom.Arg} (ha : T.Args as) (hb : T.Args bs) :
    T.Args (as ++ bs) := by
  rw [args_iff] at ha hb ⊢
  exact List.forall_mem_append.2 ⟨ha, hb⟩

end TreeSpec

open Template (PartOf builtinElements)

/-- What a tag with some name and attributes opens meets the conditions. -/
structure TreeSpec.Opens (T : TreeSpec) (source : Bytes) (pos : Pos) (name : Bytes)
    (attrs : List Template.Attr) : Prop where
  definition : name = Bytes.ofString "t:def" → ∀ n, Name.isTag n = true → T.definition pos n
  param : name = Bytes.ofString "t:param" → ∀ n type default, Name.isIdent n = true →
    (∀ e, default = some e → e.IsRead) → T.decl ⟨pos, n, type, default⟩
  slot : name = Bytes.ofString "t:slot" → ∀ n nodes, Name.isIdent n = true → T.Nodes nodes →
    T.block pos n nodes
  cond : name = Bytes.ofString "t:if" → ∀ e, e.IsRead → T.cond pos e
  loop : name = Bytes.ofString "t:for" → ∀ e item index, e.IsRead → Name.isIdent item = true →
    index = [] ∨ Name.isIdent index = true ∧ index ≠ item → T.loop pos e item index
  textArg : name ∉ builtinElements → ∀ a ∈ attrs, ∀ base value parts,
    a.value = .quoted base value → (∀ p ∈ parts, PartOf source base value p) →
      T.textArg (Pos.ofOffset source a.offset) a.name parts
  exprArg : name ∉ builtinElements → ∀ a ∈ attrs, ∀ e, e.IsRead →
    T.exprArg (Pos.ofOffset source a.offset) a.name e
  invocation : name ∉ builtinElements → ∀ args, Arg.InOrder args → T.invocation pos name args

/-- Everything built from the tokens of a source meets the conditions when it is built. -/
structure TreeSpec.Closed (T : TreeSpec) (source : Bytes) (ts : List Template.Token) : Prop where
  literal : ∀ offset s, .text offset s ∈ ts → T.literal (Pos.ofOffset source offset) s
  trim : ∀ pos s, T.literal pos s → Name.isBlank s = false →
    T.literal (Template.Body.skipBlanks pos (s.takeWhile Name.isSpace)) (s.dropWhile Name.isSpace)
  interpolation : ∀ offset s e, .interpolation offset (some s) ∈ ts → Expression.parse s = .ok e →
    T.interpolation (Pos.ofOffset source offset) e
  opens : ∀ offset name attrs problem selfClosing,
    .opening offset name attrs problem selfClosing ∈ ts →
      T.Opens source (Pos.ofOffset source offset) name attrs
  implicit : ∀ n nodes, T.Nodes (n :: nodes) → T.block n.pos Arg.implicitName (n :: nodes)

namespace Template

variable (T : TreeSpec)

/-! ## What reading keeps -/

/-- What an open element will become meets the conditions. -/
def OpenedMeets (pos : Pos) (name : Bytes) : Opened → Prop
  | .definition tag => ∀ n, tag = some n → T.definition pos n
  | .param decl => ∀ d, decl = some d → T.decl d
  | .slot slot => ∀ n nodes, slot = some n → T.Nodes nodes → T.block pos n nodes
  | .cond test otherwise =>
      (∀ e, test = some e → T.cond pos e) ∧ ∀ ns n, otherwise = some (ns, n) → T.Nodes ns
  | .otherwise => True
  | .loop head => ∀ e item index, head = some (e, item, index) → T.loop pos e item index
  | .invocation args slots =>
      (T.Args args ∧ ∀ a ∈ args, a.isBlock = false) ∧ (T.Args slots ∧ ∀ a ∈ slots, a.isBlock = true) ∧
        ∀ as, Arg.InOrder as → T.invocation pos name as

abbrev BodyMeets (b : Body) : Prop := T.Body b.decls b.nodes

structure FrameMeets (f : Frame) : Prop where
  kind : OpenedMeets T f.pos f.name f.kind
  body : BodyMeets T f.body

structure BuilderMeets (source : Bytes) (st : Builder) : Prop where
  source : st.source = source
  frames : ∀ f ∈ st.frames, FrameMeets T f
  root : BodyMeets T st.root
  defs : ∀ d ∈ st.defs, d.isRoot = false ∧ T.definition d.pos d.name ∧ T.Body d.decls d.body

/-- A part of the reading of a source that keeps the conditions and gives what `Q` says. -/
abbrev Reads (source : Bytes) {α : Type} (x : Build α) (Q : α → Prop) : Prop :=
  Keeps (BuilderMeets T source) x Q

variable {T} {source : Bytes} {α β : Type}

theorem BuilderMeets.blind : Blind source (BuilderMeets T source) where
  source := fun _ hst => hst.source
  faults := fun _ _ _ _ hst => ⟨hst.source, hst.frames, hst.root, hst.defs⟩

/-- What a closed set of conditions says of tokens it was built from. -/
abbrev Trims (T : TreeSpec) : Prop :=
  ∀ pos s, T.literal pos s → Name.isBlank s = false →
    T.literal (Body.skipBlanks pos (s.takeWhile Name.isSpace)) (s.dropWhile Name.isSpace)

/-! ## Bodies -/

theorem BodyMeets.add (hT : Trims T) {b : Body} (hb : BodyMeets T b) {n : Node} (hn : T.Node n) :
    BodyMeets T (b.add n) := by
  have hconcat := TreeSpec.nodes_concat hb.inside hn
  unfold Body.add
  repeat' split
  · exact ⟨hb.met, hb.nodup, hconcat⟩
  · exact ⟨hb.met, hb.nodup, hconcat⟩
  · rename_i hblank _
    refine ⟨hb.met, hb.nodup, ?_, trivial⟩
    cases n with
    | literal pos s => exact hT pos s hn (by simpa [Node.isBlankLiteral] using hblank)
    | _ => exact hn
  · exact ⟨hb.met, hb.nodup, hconcat⟩

theorem headerOpen_of_addDecl {b b' : Body} {d : Declaration} (h : b.addDecl d = .ok b') :
    b.headerOpen = true ∧ b'.nodes = [] := by
  unfold Body.addDecl at h
  split at h
  · cases h
  split at h
  · cases h
  rename_i hopen
  split at h
  · cases h
  · cases h
    exact ⟨by simpa using hopen, rfl⟩

theorem BodyMeets.addDecl {b b' : Body} (hb : BodyMeets T b) {d : Declaration} (hd : T.decl d)
    (h : b.addDecl d = .ok b') : BodyMeets T b' := by
  unfold Body.addDecl at h
  split at h
  · cases h
  split at h
  · cases h
  cases hfind : b.decls.find? (·.name == d.name) with
  | some first => simp [hfind] at h
  | none =>
      rw [hfind] at h
      cases h
      have hfresh : ∀ e ∈ b.decls, e.name ≠ d.name := by simpa using hfind
      refine ⟨List.forall_mem_append.2 ⟨hb.met, List.forall_mem_singleton.2 hd⟩, ?_, trivial⟩
      rw [List.map_append, List.nodup_append]
      refine ⟨hb.nodup, by simp, ?_⟩
      simpa using hfresh

theorem bodyMeets_empty (allowParams : Bool) : BodyMeets T (.empty allowParams) :=
  ⟨by simp [Body.empty], .nil, trivial⟩

/-! ## Single actions -/

theorem reads_modifyBody {f : Body → Body} (hf : ∀ b, BodyMeets T b → BodyMeets T (f b)) :
    Reads T source (Build.modifyBody f) fun _ => True := by
  refine Keeps.modify fun st hst => ?_
  split
  · exact ⟨hst.source, hst.frames, hf _ hst.root, hst.defs⟩
  · rename_i frame frames hframes
    have hall := hst.frames
    rw [hframes, List.forall_mem_cons] at hall
    refine ⟨hst.source, List.forall_mem_cons.2 ⟨?_, hall.2⟩, hst.root, hst.defs⟩
    exact ⟨hall.1.kind, hf _ hall.1.body⟩

theorem reads_currentBody : Reads T source Build.currentBody (BodyMeets T) := by
  refine Keeps.get_bind fun st hst => Keeps.pure ?_
  cases hframes : st.frames with
  | nil => exact hst.root
  | cons frame frames => exact (hst.frames frame (by simp [hframes])).body

theorem reads_addNode (hT : Trims T) {n : Node} (hn : T.Node n) :
    Reads T source (Build.addNode n) fun _ => True :=
  reads_modifyBody fun _ hb => hb.add hT hn

theorem reads_addDecl {d : Declaration} (hd : T.decl d) :
    Reads T source (Build.addDecl d) fun _ => True := by
  refine reads_currentBody.bind fun b hb => ?_
  split
  · rename_i b' hadd
    exact reads_modifyBody fun _ _ => hb.addDecl hd hadd
  · exact keeps_fault BuilderMeets.blind _ _

/-! ## Closing elements -/

theorem reads_checkAfterElse (nodes : List Node) :
    Reads T source (checkAfterElse nodes) fun _ => True := by
  unfold checkAfterElse
  split
  · exact keeps_fault BuilderMeets.blind _ _
  · exact Keeps.pure trivial

theorem mem_contentArgs {slots : List Arg} {nodes : List Node} {a : Arg}
    (ha : a ∈ contentArgs slots nodes) :
    a ∈ slots ∨ ∃ n ns, nodes = n :: ns ∧ a = .content n.pos Arg.implicitName nodes := by
  have ha := List.mem_mergeSort.1 ha
  rcases List.mem_append.1 ha with ha | ha
  · exact .inl ha
  · cases nodes with
    | nil => cases ha
    | cons n ns =>
        dsimp only at ha
        split at ha
        · cases ha
        · exact .inr ⟨n, ns, rfl, List.mem_singleton.1 ha⟩

theorem args_contentArgs (hT : ∀ n nodes, T.Nodes (n :: nodes) →
      T.block n.pos Arg.implicitName (n :: nodes)) {slots : List Arg} {nodes : List Node}
    (hslots : T.Args slots) (hnodes : T.Nodes nodes) : T.Args (contentArgs slots nodes) := by
  rw [TreeSpec.args_iff] at hslots ⊢
  intro a ha
  rcases mem_contentArgs ha with ha | ⟨n, ns, rfl, rfl⟩
  · exact hslots a ha
  · exact ⟨hT n ns hnodes, hnodes⟩

theorem pairwise_contentArgs (slots : List Arg) (nodes : List Node) :
    (contentArgs slots nodes).Pairwise fun a b => b.pos.before a.pos = false := by
  have hsorted := List.pairwise_mergeSort
    (fun a b c : Arg => Pos.not_before_trans (p := a.pos) (q := b.pos) (r := c.pos))
    (fun a b : Arg => Pos.not_before_total a.pos b.pos) (slots ++ implicitArgs nodes)
  exact hsorted.imp fun h => by simpa using h

theorem inOrder_append_contentArgs {args slots : List Arg} (nodes : List Node)
    (hargs : ∀ a ∈ args, a.isBlock = false) (hslots : ∀ a ∈ slots, a.isBlock = true) :
    Arg.InOrder (args ++ contentArgs slots nodes) := by
  have hblocks : ∀ a ∈ contentArgs slots nodes, a.isBlock = true := by
    intro a ha
    rcases mem_contentArgs ha with ha | ⟨n, ns, -, rfl⟩
    · exact hslots a ha
    · rfl
  have hnone (a : Arg) (ha : a ∈ args) {p : Prop} (hblock : a.isBlock = true) : p :=
    absurd hblock (by simp [hargs a ha])
  rw [Arg.InOrder, List.pairwise_append]
  refine ⟨?_, ?_, fun a ha b _ => hnone a ha⟩
  · exact List.pairwise_iff_forall_sublist.2 fun {a b} hab => hnone a (hab.subset (by simp))
  · exact (pairwise_contentArgs slots nodes).imp_of_mem fun _ hb hbefore _ => ⟨hblocks _ hb, hbefore⟩

theorem BuilderMeets.pop {st : Builder} (hst : BuilderMeets T source st) {f : Frame}
    {fs : List Frame} (h : st.frames = f :: fs) :
    FrameMeets T f ∧ BuilderMeets T source { st with frames := fs } := by
  have hframes := hst.frames
  rw [h, List.forall_mem_cons] at hframes
  exact ⟨hframes.1, hst.source, hframes.2, hst.root, hst.defs⟩

theorem BuilderMeets.push {st : Builder} (hst : BuilderMeets T source st) {f : Frame}
    (hf : FrameMeets T f) {fs : List Frame} (hfs : ∀ g ∈ fs, FrameMeets T g) :
    BuilderMeets T source { st with frames := f :: fs } :=
  ⟨hst.source, List.forall_mem_cons.2 ⟨hf, hfs⟩, hst.root, hst.defs⟩

def addSlot (pos : Pos) (name : Bytes) (nodes : List Node) (st : Builder) : Builder :=
  match st.frames with
  | f :: frames =>
      match f.kind with
      | .invocation args slots =>
          { st with frames := { f with
              kind := .invocation args (slots ++ [.content pos name nodes]) } :: frames }
      | _ => st
  | [] => st

theorem reads_addSlot {pos : Pos} {name : Bytes} {nodes : List Node}
    (hblock : T.block pos name nodes) (hnodes : T.Nodes nodes) :
    Reads T source (modify (addSlot pos name nodes)) fun _ => True := by
  refine Keeps.modify fun st hst => ?_
  unfold addSlot
  split
  · rename_i f frames hframes
    obtain ⟨hf, hrest⟩ := hst.pop hframes
    split
    · rename_i args slots hkind
      have hopened := hf.kind
      rw [hkind] at hopened
      obtain ⟨hargs, ⟨hslots, hblocks⟩, hinvocation⟩ := hopened
      have hslots' : T.Args (slots ++ [Arg.content pos name nodes]) :=
        TreeSpec.args_append hslots ⟨⟨hblock, hnodes⟩, trivial⟩
      have hblocks' : ∀ a ∈ slots ++ [Arg.content pos name nodes], a.isBlock = true :=
        List.forall_mem_append.2 ⟨hblocks, List.forall_mem_singleton.2 rfl⟩
      have hf' : FrameMeets T
          { f with kind := .invocation args (slots ++ [Arg.content pos name nodes]) } :=
        ⟨⟨hargs, ⟨hslots', hblocks'⟩, hinvocation⟩, hf.body⟩
      exact hst.push hf' hrest.frames
    · exact hst
  · exact hst

theorem reads_deliver {ts : List Token} (hT : T.Closed source ts) {frame : Frame}
    (hframe : FrameMeets T frame) : Reads T source (deliver frame) fun _ => True := by
  obtain ⟨hkind, hbody⟩ := hframe
  have hnodes := hbody.inside
  unfold deliver
  extract_lets nodes
  cases hk : frame.kind with
  | definition name =>
      rw [hk] at hkind
      cases name with
      | none => exact Keeps.pure trivial
      | some name =>
          refine Keeps.modify fun st hst => ⟨hst.source, hst.frames, hst.root, ?_⟩
          exact List.forall_mem_append.2
            ⟨hst.defs, List.forall_mem_singleton.2 ⟨rfl, hkind name rfl, hbody⟩⟩
  | param decl =>
      rw [hk] at hkind
      exact ensures_deliver_param frame.name (keeps_fault BuilderMeets.blind _ _) (Keeps.pure trivial)
        fun d hd => reads_addDecl (hkind d hd)
  | slot name =>
      rw [hk] at hkind
      cases name with
      | none => exact Keeps.pure trivial
      | some name => exact reads_addSlot (hkind name nodes rfl hnodes) hnodes
  | cond test otherwise =>
      rw [hk] at hkind
      refine ensures_deliver_cond frame.name (fun _ => reads_checkAfterElse _) (Keeps.pure trivial)
        fun e he => reads_addNode hT.trim
          (TreeSpec.cond_iff.2 ⟨hkind.1 e he, hnodes, fun ns hns => ?_⟩)
      obtain ⟨⟨ns', n⟩, hother, rfl⟩ := Option.map_eq_some_iff.1 hns
      exact hkind.2 ns' n hother
  | otherwise =>
      refine Keeps.get_bind fun st hst => ?_
      split
      · rename_i f frames hframes
        obtain ⟨hf, hrest⟩ := hst.pop hframes
        split
        · rename_i test hkind'
          have hopened := hf.kind
          rw [hkind'] at hopened
          have hf' : FrameMeets T
              { f with kind := .cond test (some (nodes, f.body.nodes.length)) } := by
            refine ⟨⟨hopened.1, fun ns n hns => ?_⟩, hf.body⟩
            cases hns
            exact hnodes
          exact Keeps.set (hst.push hf' hrest.frames)
        · exact keeps_fault BuilderMeets.blind _ _
        · exact keeps_fault BuilderMeets.blind _ _
      · exact keeps_fault BuilderMeets.blind _ _
  | loop head =>
      rw [hk] at hkind
      cases head with
      | none => exact Keeps.pure trivial
      | some head =>
          obtain ⟨each, item, index⟩ := head
          exact reads_addNode hT.trim ⟨hkind each item index rfl, hnodes⟩
  | invocation args slots =>
      rw [hk] at hkind
      obtain ⟨⟨hargs, hattrs⟩, ⟨hslots, hblocks⟩, hinvocation⟩ := hkind
      refine reads_addNode hT.trim ⟨?_, ?_⟩
      · exact hinvocation _ (inOrder_append_contentArgs nodes hattrs hblocks)
      · exact TreeSpec.args_append hargs (args_contentArgs hT.implicit hslots hnodes)

theorem reads_closeTop {ts : List Token} (hT : T.Closed source ts) :
    Reads T source closeTop fun _ => True := by
  refine Keeps.get_bind fun st hst => ?_
  split
  · exact Keeps.pure trivial
  · rename_i frame frames hframes
    obtain ⟨hf, hrest⟩ := hst.pop hframes
    exact (Keeps.set hrest).skip fun _ => reads_deliver hT hf

def closeFrames (pos : Pos) (name : Bytes) (malformed : Bool) (fuel : Nat) : Build Unit := do
  match (← get).frames with
  | [] => Build.fault pos (.unexpectedClosing name)
  | frame :: frames =>
      if frame.name == name then closeTop
      else if frames.any (·.name == name) then
        Build.fault frame.pos (.unclosed frame.name)
        closeTop
        if !(← get).aborted then closeTag pos name malformed fuel
      else Build.fault pos (.unexpectedClosing name)

theorem closeTag_succ (pos : Pos) (name : Bytes) (malformed : Bool) (fuel : Nat) :
    closeTag pos name malformed (fuel + 1) =
      if malformed then Build.fault pos (.malformedClosing name) >>= fun _ =>
        closeFrames pos name malformed fuel
      else closeFrames pos name malformed fuel := by
  cases malformed <;> rfl

theorem run_closeFrames_top {st : Builder} {f : Frame} {fs : List Frame} (h : st.frames = f :: fs)
    (pos : Pos) (malformed : Bool) (fuel : Nat) :
    (closeFrames pos f.name malformed fuel).run st = closeTop.run st := by
  obtain ⟨_, _, frames, _, _, _, _⟩ := st
  subst h
  change (if f.name == f.name then closeTop else _ : Build Unit).run _ = _
  rw [if_pos (beq_self_eq_true f.name)]

section Closing

variable {I : Builder → Prop}

theorem keeps_closeTag (hI : Blind source I) (htop : Keeps I closeTop fun _ => True) (pos : Pos)
    (name : Bytes) (malformed : Bool) (fuel : Nat) :
    Keeps I (closeTag pos name malformed fuel) fun _ => True := by
  induction fuel with
  | zero => exact Keeps.pure trivial
  | succ fuel ih =>
      have hclose : Keeps I (closeFrames pos name malformed fuel) fun _ => True := by
        refine Keeps.get_bind fun st hst => ?_
        split
        · exact keeps_fault hI _ _
        split
        · exact htop
        split
        · refine (keeps_fault hI _ _).skip fun _ => htop.skip fun _ =>
            Keeps.get_bind fun st hst => ?_
          split
          · exact ih
          · exact Keeps.pure trivial
        · exact keeps_fault hI _ _
      rw [closeTag_succ]
      split
      · exact (keeps_fault hI _ _).skip fun _ => hclose
      · exact hclose

theorem keeps_closeAll (hI : Blind source I) (htop : Keeps I closeTop fun _ => True) (fuel : Nat) :
    Keeps I (closeAll fuel) fun _ => True := by
  induction fuel with
  | zero => exact Keeps.pure trivial
  | succ fuel ih =>
      refine Keeps.get_bind fun st hst => ?_
      split
      · exact Keeps.pure trivial
      · exact (keeps_fault hI _ _).skip fun _ => htop.skip fun _ => ih

end Closing

theorem reads_closeTag {ts : List Token} (hT : T.Closed source ts) (pos : Pos) (name : Bytes)
    (malformed : Bool) (fuel : Nat) :
    Reads T source (closeTag pos name malformed fuel) fun _ => True :=
  keeps_closeTag BuilderMeets.blind (reads_closeTop hT) pos name malformed fuel

theorem reads_closeAll {ts : List Token} (hT : T.Closed source ts) (fuel : Nat) :
    Reads T source (closeAll fuel) fun _ => True :=
  keeps_closeAll BuilderMeets.blind (reads_closeTop hT) fuel

/-! ## Opening elements -/

theorem ArgOf.isBlock {a : Attr} {arg : Arg} (h : ArgOf source a arg) : arg.isBlock = false := by
  cases h with
  | expr => rfl
  | text => rfl

theorem ArgOf.meets {pos : Pos} {name : Bytes} {attrs : List Attr}
    (hopens : T.Opens source pos name attrs) (hname : name ∉ builtinElements) {a : Attr}
    (ha : a ∈ attrs) {arg : Arg} (h : ArgOf source a arg) : T.Arg arg := by
  cases h with
  | expr he => exact hopens.exprArg hname a ha _ he
  | text hvalue hparts => exact hopens.textArg hname a ha _ _ _ hvalue hparts

theorem OpenedBy.meets {pos : Pos} {name : Bytes} {attrs : List Attr}
    (hopens : T.Opens source pos name attrs) {r : Opened × Bool}
    (h : OpenedBy source pos name attrs r) : OpenedMeets T pos name r.1 := by
  cases h with
  | definition hname htag => exact fun n hn => hopens.definition hname n (htag n hn)
  | param hname hdecl =>
      rintro ⟨at_, n, type, default⟩ hd
      obtain ⟨hat, hident, hdefault⟩ := hdecl _ hd
      cases hat
      exact hopens.param hname n type default hident hdefault
  | slot hname hslot => exact fun n nodes hn hnodes => hopens.slot hname n nodes (hslot n hn) hnodes
  | cond hname htest => exact ⟨fun e he => hopens.cond hname e (htest e he), nofun⟩
  | otherwise => trivial
  | loop hname hhead =>
      intro e item index heq
      obtain ⟨he, hitem, hindex⟩ := hhead e item index heq
      exact hopens.loop hname e item index he hitem hindex
  | invocation hname hargs =>
      refine ⟨⟨TreeSpec.args_iff.2 fun arg harg => ?_, fun arg harg => ?_⟩, ⟨trivial, nofun⟩,
        hopens.invocation hname⟩
      · obtain ⟨a, ha, hof⟩ := hargs arg harg
        exact hof.meets hopens hname ha
      · obtain ⟨a, -, hof⟩ := hargs arg harg
        exact hof.isBlock

/-! ## Whole sources -/

theorem reads_step {ts : List Token} (hT : T.Closed source ts) {t : Token} (ht : t ∈ ts) :
    Reads T source (step t) fun _ => True := by
  cases t with
  | text offset s =>
      refine (keeps_posOf BuilderMeets.blind _).bind fun pos hpos => reads_addNode hT.trim ?_
      rw [hpos]
      exact hT.literal offset s ht
  | interpolation offset s =>
      refine (keeps_posOf BuilderMeets.blind _).bind fun pos hpos => ?_
      split
      · exact keeps_fault BuilderMeets.blind _ _
      split
      · exact keeps_fault BuilderMeets.blind _ _
      split
      · rename_i s _ _ e hparse
        refine reads_addNode hT.trim ?_
        rw [hpos]
        exact hT.interpolation offset s e ht hparse
      · exact keeps_fault BuilderMeets.blind _ _
  | closing offset name malformed =>
      exact (keeps_posOf BuilderMeets.blind _).bind fun _ _ => Keeps.get_bind fun _ _ =>
        reads_closeTag hT _ _ _ _
  | opening offset name attrs problem selfClosing =>
      refine (keeps_posOf BuilderMeets.blind _).bind fun pos hpos => ?_
      extract_lets afterProblem
      have hafterProblem : ∀ r, Reads T source (afterProblem r) fun _ => True := by
        intro r
        simp only [afterProblem]
        have hopens := hT.opens offset name attrs problem selfClosing ht
        rw [← hpos] at hopens
        refine (keeps_openElement BuilderMeets.blind _ _ _).bind fun opened hopened => ?_
        obtain ⟨kind, allowParams⟩ := opened
        have hframe : FrameMeets T ⟨kind, name, pos, .empty allowParams⟩ :=
          ⟨hopened.meets hopens, bodyMeets_empty allowParams⟩
        dsimp only
        split
        · exact reads_deliver hT hframe
        · exact Keeps.modify fun st hst => hst.push hframe hst.frames
      split
      · exact (keeps_fault BuilderMeets.blind _ _).skip hafterProblem
      · exact (keeps_posOf BuilderMeets.blind _).bind fun _ _ =>
          (keeps_fault BuilderMeets.blind _ _).skip hafterProblem
      · exact hafterProblem ()

theorem reads_run {ts : List Token} (hT : T.Closed source ts) (us : List Token)
    (hus : ∀ t ∈ us, t ∈ ts) : Reads T source (run us) fun _ => True := by
  induction us with
  | nil => exact Keeps.pure trivial
  | cons t us ih =>
      obtain ⟨ht, hus⟩ := List.forall_mem_cons.1 hus
      refine (reads_step hT ht).skip fun _ => Keeps.get_bind fun st hst => ?_
      split
      · exact ih hus
      · exact Keeps.pure trivial

def readAll (file source : Bytes) : Builder :=
  ((do
    run (lex source)
    closeAll ((← get).frames.length + 1) : Build Unit).run
      ⟨source, file, [], .empty true, [], [], false⟩).2

def Builder.hasRoot (st : Builder) : Bool :=
  !st.root.decls.isEmpty || !Node.allBlank st.root.nodes

theorem parse_eq (file path source : Bytes) : parse file path source =
    let st := readAll file source
    (⟨path, file, (if st.hasRoot then
        [⟨Name.ofPath path, true, .start, st.root.decls, st.root.nodes, file, path⟩] else []) ++
      st.defs.map ({ · with template := path })⟩, st.faults.reverse) := rfl

theorem builderMeets_readAll (file : Bytes) (hT : T.Closed source (lex source)) :
    BuilderMeets T source (readAll file source) := by
  have hread : Reads T source (do
      run (lex source)
      closeAll ((← get).frames.length + 1)) fun _ => True :=
    (reads_run hT _ fun _ h => h).skip fun _ => Keeps.get_bind fun _ _ => reads_closeAll hT _
  exact (hread _ ⟨rfl, by simp, bodyMeets_empty true, by simp⟩).1

/-- Conditions that are met by everything when it is built are met by the tags of a template. -/
theorem template_parse (file path : Bytes) (hT : T.Closed source (lex source)) :
    T.Template (parse file path source).1 := by
  have hst := builderMeets_readAll file hT
  rw [parse_eq]
  generalize readAll file source = st at hst
  have hdefs : ∀ d ∈ st.defs.map ({ · with template := path }),
      d.isRoot = false ∧ T.definition d.pos d.name ∧ T.Body d.decls d.body :=
    List.forall_mem_map.2 hst.defs
  dsimp only
  split
  · exact {
      bodies := List.forall_mem_cons.2 ⟨hst.root, fun d hd => (hdefs d hd).2.2⟩
      definitions := List.forall_mem_cons.2 ⟨nofun, fun d hd _ => (hdefs d hd).2.1⟩
      rootFirst := fun d hd => (hdefs d hd).1 }
  · exact {
      bodies := fun d hd => (hdefs d hd).2.2
      definitions := fun d hd _ => (hdefs d hd).2.1
      rootFirst := fun d hd => (hdefs d (List.mem_of_mem_tail hd)).1 }

end Template

/-! ## Leaves

Reading a template builds its nodes from the texts of its tokens, from expressions that were read,
and from names that were checked.  Conditions on these leaves hold all through the tree as well. -/

/-- Conditions on the texts, the expressions and the bound names of a tree. -/
structure LeafSpec where
  text : Bytes → Prop
  expr : Expression → Prop
  name : Bytes → Prop

namespace LeafSpec

variable (P : LeafSpec)

def Part : Part → Prop
  | .literal _ _ => True
  | .interpolation _ e => P.expr e

mutual

/-- The leaves of a node meet the conditions. -/
def Node : Node → Prop
  | .literal _ s => P.text s
  | .interpolation _ e _ => P.expr e
  | .invocation _ _ args => Args args
  | .cond _ e body none => P.expr e ∧ Nodes body
  | .cond _ e body (some other) => P.expr e ∧ Nodes body ∧ Nodes other
  | .loop _ e item index body =>
      P.expr e ∧ P.name item ∧ (index = [] ∨ P.name index) ∧ Nodes body

def Nodes : List TagLoom.Node → Prop
  | [] => True
  | n :: ns => Node n ∧ Nodes ns

def Arg : Arg → Prop
  | .text _ _ parts => ∀ p ∈ parts, P.Part p
  | .expr _ _ e => P.expr e
  | .content _ _ body => Nodes body

def Args : List TagLoom.Arg → Prop
  | [] => True
  | a :: as => Arg a ∧ Args as

end

def Declaration (d : Declaration) : Prop := P.name d.name ∧ ∀ e, d.default = some e → P.expr e

def Definition (d : Definition) : Prop :=
  (∀ decl ∈ d.decls, P.Declaration decl) ∧ P.Nodes d.body

variable {P}

theorem args_iff {as : List TagLoom.Arg} : P.Args as ↔ ∀ a ∈ as, P.Arg a := by
  induction as with
  | nil => simp [Args]
  | cons a as ih => simp [Args, ih]

end LeafSpec

namespace LeafSpec

def tree (P : LeafSpec) : TreeSpec where
  literal _ s := P.text s
  interpolation _ e := P.expr e
  invocation _ _ _ := True
  cond _ e := P.expr e
  loop _ e item index := P.expr e ∧ P.name item ∧ (index = [] ∨ P.name index)
  textArg _ _ parts := ∀ p ∈ parts, P.Part p
  exprArg _ _ e := P.expr e
  block _ _ _ := True
  decl := P.Declaration
  definition _ _ := True

variable {P : LeafSpec}

mutual

theorem node_of_tree (n : TagLoom.Node) (h : P.tree.Node n) : P.Node n := by
  cases n with
  | literal p s => exact h
  | interpolation p e esc => exact h
  | invocation p name args => exact args_of_tree args h.2
  | cond p e body other =>
      cases other with
      | none => exact ⟨h.1, nodes_of_tree body h.2⟩
      | some other => exact ⟨h.1, nodes_of_tree body h.2.1, nodes_of_tree other h.2.2⟩
  | loop p e item index body =>
      obtain ⟨⟨he, hitem, hindex⟩, hbody⟩ := h
      exact ⟨he, hitem, hindex, nodes_of_tree body hbody⟩

theorem nodes_of_tree (ns : List TagLoom.Node) (h : P.tree.Nodes ns) : P.Nodes ns := by
  cases ns with
  | nil => trivial
  | cons n ns => exact ⟨node_of_tree n h.1, nodes_of_tree ns h.2⟩

theorem args_of_tree (as : List TagLoom.Arg) (h : P.tree.Args as) : P.Args as := by
  cases as with
  | nil => trivial
  | cons a as =>
      have has := args_of_tree as h.2
      cases a with
      | text p name parts => exact ⟨h.1, has⟩
      | expr p name e => exact ⟨h.1, has⟩
      | content p name body => exact ⟨nodes_of_tree body h.1.2, has⟩

end

end LeafSpec

namespace Template

variable (P : LeafSpec)

structure Closed : Prop where
  trim : ∀ s, P.text s → P.text (s.dropWhile Name.isSpace)
  parsed : ∀ s e, Expression.parse s = .ok e → P.expr e
  ident : ∀ n, Name.isIdent n = true → P.name n

variable {P}

theorem Closed.tree (hP : Closed P) {source : Bytes} {ts : List Token}
    (htext : ∀ offset s, Token.text offset s ∈ ts → P.text s) : P.tree.Closed source ts := by
  have hread {e : Expression} (he : e.IsRead) : P.expr e := he.elim fun s hs => hP.parsed s e hs
  exact {
    literal := htext
    trim := fun _ s hs _ => hP.trim s hs
    interpolation := fun _ s e _ he => hP.parsed s e he
    implicit := fun _ _ _ => trivial
    opens := fun _ _ _ _ _ _ => {
      definition := fun _ _ _ => trivial
      param := fun _ n _ _ hn hdefault => ⟨hP.ident n hn, fun e he => hread (hdefault e he)⟩
      slot := fun _ _ _ _ _ => trivial
      cond := fun _ _ he => hread he
      loop := fun _ _ item index he hitem hindex =>
        ⟨hread he, hP.ident item hitem, hindex.imp_right fun h => hP.ident index h.1⟩
      textArg := fun _ _ _ _ _ parts _ hparts p hp => by
        cases hparts p hp with
        | literal => trivial
        | interpolation _ he => exact hP.parsed _ _ he
      exprArg := fun _ _ _ _ he => hread he
      invocation := fun _ _ _ => trivial } }

/-- What holds of the texts of the tokens, of read expressions and of checked names holds of the
leaves of every tag of a template. -/
theorem parse_meets (hP : Closed P) (file path source : Bytes)
    (htext : ∀ offset s, Token.text offset s ∈ lex source → P.text s) :
    ∀ d ∈ (parse file path source).1.defs, P.Definition d := by
  intro d hd
  have hbody := (template_parse file path (hP.tree htext)).bodies d hd
  exact ⟨hbody.met, LeafSpec.nodes_of_tree _ hbody.inside⟩

end Template

end TagLoom

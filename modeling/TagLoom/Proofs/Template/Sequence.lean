import TagLoom.Proofs.Template.Local
import TagLoom.Proofs.Template.Parts

/-!
# Sequences in the order of the source

The nodes of every body, of every branch and of every block stand one behind the other, and so do
the blocks of an invocation.  While a template is read, whatever an element holds stands before the
tag of the element that is open in it, and what the innermost one holds before the next token;
faults change nothing about that.
-/

namespace TagLoom

namespace Pos

/-- Positions each of which is before those behind it. -/
def Increasing (ps : List Pos) : Prop := ps.Pairwise fun p q => p.before q = true

theorem increasing_concat {ps : List Pos} (h : Increasing ps)
    (hp : ∀ q ∈ ps, q.before p = true) : Increasing (ps ++ [p]) :=
  List.pairwise_append.2 ⟨h, List.pairwise_singleton _ _, fun q hq _ hr =>
    List.mem_singleton.1 hr ▸ hp q hq⟩

end Pos

open Pos (Increasing)

/-! ## Trees in order -/

mutual

/-- The nodes of each sequence in a node and the blocks of each invocation stand one behind the
other. -/
def Node.Ordered : Node → Prop
  | .literal _ _ | .interpolation _ _ _ => True
  | .invocation _ _ args =>
      Increasing ((args.filter (·.isBlock)).map (·.pos)) ∧ Arg.AllOrdered args
  | .cond _ _ body none => Increasing (body.map (·.pos)) ∧ Node.AllOrdered body
  | .cond _ _ body (some other) =>
      (Increasing (body.map (·.pos)) ∧ Node.AllOrdered body) ∧
        Increasing (other.map (·.pos)) ∧ Node.AllOrdered other
  | .loop _ _ _ _ body => Increasing (body.map (·.pos)) ∧ Node.AllOrdered body

def Node.AllOrdered : List Node → Prop
  | [] => True
  | n :: ns => n.Ordered ∧ Node.AllOrdered ns

def Arg.Ordered : Arg → Prop
  | .text _ _ _ | .expr _ _ _ => True
  | .content _ _ body => Increasing (body.map (·.pos)) ∧ Node.AllOrdered body

def Arg.AllOrdered : List Arg → Prop
  | [] => True
  | a :: as => a.Ordered ∧ Arg.AllOrdered as

end

def Node.InSequence (ns : List Node) : Prop :=
  Increasing (ns.map (·.pos)) ∧ Node.AllOrdered ns

theorem Node.allOrdered_iff {ns : List Node} : Node.AllOrdered ns ↔ ∀ n ∈ ns, n.Ordered := by
  induction ns with
  | nil => simp [Node.AllOrdered]
  | cons n ns ih => simp [Node.AllOrdered, ih]

theorem Arg.allOrdered_iff {as : List Arg} : Arg.AllOrdered as ↔ ∀ a ∈ as, a.Ordered := by
  induction as with
  | nil => simp [Arg.AllOrdered]
  | cons a as ih => simp [Arg.AllOrdered, ih]

theorem Node.ordered_cond {p : Pos} {e : Expression} {body : List Node}
    {other : Option (List Node)} (hbody : Node.InSequence body)
    (hother : ∀ ns, other = some ns → Node.InSequence ns) : (Node.cond p e body other).Ordered := by
  cases other with
  | none => exact hbody
  | some ns => exact ⟨hbody, hother ns rfl⟩

namespace Template

variable {p q : Pos} {n : Node} {ns : List Node} {b : Body} {kind : Opened} {f g : Frame}
  {fs : List Frame} {root : Body} {source : Bytes} {st : Builder} {α : Type}

/-! ## Nodes before a position -/

/-- A sequence of nodes that stand before a position. -/
structure Before (q : Pos) (ns : List Node) : Prop where
  sequence : Node.InSequence ns
  before : ∀ n ∈ ns, n.pos.before q = true

/-- A node stands before a position, also without its leading blanks. -/
structure Spans (q : Pos) (n : Node) : Prop where
  ordered : n.Ordered
  before : n.pos.before q = true
  trimmed : n.isBlankLiteral = false → (Body.trimLeading n).pos.before n.pos = false ∧
    (Body.trimLeading n).pos.before q = true

theorem before_nil (q : Pos) : Before q [] :=
  ⟨⟨.nil, trivial⟩, fun _ h => absurd h List.not_mem_nil⟩

theorem Before.mono (h : Before p ns) (hpq : p.before q = true) : Before q ns :=
  ⟨h.sequence, fun n hn => Pos.before_trans (h.before n hn) hpq⟩

theorem Before.concat (h : Before n.pos ns) (hn : n.Ordered) (hpq : n.pos.before q = true) :
    Before q (ns ++ [n]) := by
  refine ⟨⟨?_, ?_⟩, List.forall_mem_append.2 ⟨(h.mono hpq).before, ?_⟩⟩
  · rw [List.map_append]
    exact Pos.increasing_concat h.sequence.1 (List.forall_mem_map.2 h.before)
  · exact Node.allOrdered_iff.2 (List.forall_mem_append.2
      ⟨Node.allOrdered_iff.1 h.sequence.2, List.forall_mem_singleton.2 hn⟩)
  · exact List.forall_mem_singleton.2 hpq

theorem spans_of_trimLeading (hn : n.Ordered) (hpq : n.pos.before q = true)
    (htrim : Body.trimLeading n = n) : Spans q n :=
  ⟨hn, hpq, fun _ => by rw [htrim]; exact ⟨Pos.not_before_self _, hpq⟩⟩

theorem ordered_trimLeading (h : n.Ordered) : (Body.trimLeading n).Ordered := by
  cases n with
  | literal => trivial
  | _ => exact h

theorem nodes_add (b : Body) (n : Node) : (b.add n).nodes = b.nodes ++ [n] ∨
    n.isBlankLiteral = false ∧ (b.add n).nodes = [Body.trimLeading n] := by
  unfold Body.add
  repeat' split
  · exact .inl rfl
  · exact .inl rfl
  · rename_i hblank _
    exact .inr ⟨by simpa using hblank, rfl⟩
  · exact .inl rfl

theorem Before.add (h : Before n.pos b.nodes) (hn : Spans q n) : Before q (b.add n).nodes := by
  rcases nodes_add b n with hnodes | ⟨hblank, hnodes⟩
  · rw [hnodes]
    exact h.concat hn.ordered hn.before
  · have hnil := before_nil (Body.trimLeading n).pos
    rw [hnodes]
    exact hnil.concat (ordered_trimLeading hn.ordered) (hn.trimmed hblank).2

/-! ## Open elements -/

/-- The blocks of an open invocation stand before a position, and none where a node of it does. -/
structure SlotsBefore (q : Pos) (ns : List Node) (slots : List Arg) : Prop where
  increasing : Increasing (slots.map (·.pos))
  each : ∀ a ∈ slots, a.isBlock = true ∧ a.Ordered ∧ a.pos.before q = true
  apart : ∀ a ∈ slots, ∀ n ∈ ns, a.pos ≠ n.pos

/-- What an open element holds beside its nodes stands before a position. -/
def OpenedBefore (q : Pos) (ns : List Node) : Opened → Prop
  | .cond _ branch => ∀ other k, branch = some (other, k) → Node.InSequence other
  | .invocation args slots => (∀ a ∈ args, a.isBlock = false) ∧ SlotsBefore q ns slots
  | _ => True

/-- What an open element holds stands before a position. -/
structure FrameBefore (q : Pos) (f : Frame) : Prop where
  pos : f.pos.before q = true
  body : Before q f.body.nodes
  kind : OpenedBefore q f.body.nodes f.kind

theorem OpenedBefore.mono (h : OpenedBefore p ns kind) (hpq : p.before q = true) :
    OpenedBefore q ns kind := by
  cases kind with
  | cond test other => exact h
  | invocation args slots =>
      exact ⟨h.1, h.2.increasing, fun a ha => ⟨(h.2.each a ha).1, (h.2.each a ha).2.1,
        Pos.before_trans (h.2.each a ha).2.2 hpq⟩, h.2.apart⟩
  | _ => trivial

theorem FrameBefore.mono (h : FrameBefore p f) (hpq : p.before q = true) : FrameBefore q f :=
  ⟨Pos.before_trans h.pos hpq, h.body.mono hpq, h.kind.mono hpq⟩

theorem SlotsBefore.add {slots : List Arg} (h : SlotsBefore n.pos b.nodes slots)
    (hn : Spans q n) : SlotsBefore q (b.add n).nodes slots := by
  refine ⟨h.increasing, fun a ha => ?_, fun a ha m hm => ?_⟩
  · obtain ⟨hblock, hordered, hbefore⟩ := h.each a ha
    exact ⟨hblock, hordered, Pos.before_trans hbefore hn.before⟩
  · have hbefore := (h.each a ha).2.2
    rcases nodes_add b n with hnodes | ⟨hblank, hnodes⟩
    · rw [hnodes] at hm
      rcases List.mem_append.1 hm with hm | hm
      · exact h.apart a ha m hm
      · exact List.mem_singleton.1 hm ▸ Pos.ne_of_before hbefore
    · rw [hnodes] at hm
      exact List.mem_singleton.1 hm ▸ Pos.ne_of_before
        (Pos.before_of_before_of_not_before hbefore (hn.trimmed hblank).1)

theorem FrameBefore.add (h : FrameBefore n.pos f) (hn : Spans q n) :
    FrameBefore q { f with body := f.body.add n } := by
  refine ⟨Pos.before_trans h.pos hn.before, h.body.add hn, ?_⟩
  have hkind := h.kind
  cases hk : f.kind with
  | cond test other =>
      rw [hk] at hkind
      exact hkind
  | invocation args slots =>
      rw [hk] at hkind
      exact ⟨hkind.1, hkind.2.add hn⟩
  | _ => trivial

theorem FrameBefore.clear (h : FrameBefore q f) (hb : b.nodes = []) :
    FrameBefore q { f with body := b } := by
  refine ⟨h.pos, hb ▸ before_nil q, ?_⟩
  have hkind := h.kind
  cases hk : f.kind with
  | cond test other =>
      rw [hk] at hkind
      exact hkind
  | invocation args slots =>
      rw [hk] at hkind
      exact ⟨hkind.1, hkind.2.increasing, hkind.2.each, fun a _ m hm => by simp [hb] at hm⟩
  | _ => trivial

/-- Open elements, innermost first, and the root around them: each stands before the tag of the
next, and the innermost before a position. -/
def StackBefore : Pos → List Frame → Body → Prop
  | q, [], root => Before q root.nodes
  | q, f :: fs, root => FrameBefore q f ∧ StackBefore f.pos fs root

theorem StackBefore.mono (h : StackBefore p fs root) (hpq : p.before q = true) :
    StackBefore q fs root := by
  cases fs with
  | nil => exact Before.mono h hpq
  | cons f fs => exact ⟨h.1.mono hpq, h.2⟩

theorem StackBefore.inSequence_root (h : StackBefore q fs root) : Node.InSequence root.nodes := by
  induction fs generalizing q with
  | nil => exact h.sequence
  | cons f fs ih => exact ih h.2

structure ReadBefore (source : Bytes) (q : Pos) (st : Builder) : Prop where
  source : st.source = source
  stack : StackBefore q st.frames st.root
  defs : ∀ d ∈ st.defs, Node.InSequence d.body

theorem ReadBefore.blind : Blind source (ReadBefore source q) where
  source := fun _ hst => hst.source
  faults := fun _ _ _ _ hst => ⟨hst.source, hst.stack, hst.defs⟩

theorem ReadBefore.mono (h : ReadBefore source p st) (hpq : p.before q = true) :
    ReadBefore source q st :=
  ⟨h.source, h.stack.mono hpq, h.defs⟩

theorem ensures_mono {x : Build α} {Q : α → Prop} (hx : Keeps (ReadBefore source p) x Q)
    (hpq : p.before q = true) :
    Ensures (ReadBefore source p) x fun _ => ReadBefore source q :=
  Ensures.weaken hx fun _ _ hst => hst.1.mono hpq

/-! ## Single actions -/

theorem ensures_addNode (hn : Spans q n) :
    Ensures (ReadBefore source n.pos) (Build.addNode n) fun _ => ReadBefore source q := by
  refine Ensures.modify fun st hst => ?_
  have hstack := hst.stack
  split
  · rename_i hframes
    rw [hframes] at hstack
    exact ⟨hst.source, hframes ▸ Before.add hstack hn, hst.defs⟩
  · rename_i f fs hframes
    rw [hframes] at hstack
    exact ⟨hst.source, ⟨hstack.1.add hn, hstack.2⟩, hst.defs⟩

theorem keeps_addDecl (d : Declaration) :
    Keeps (ReadBefore source q) (Build.addDecl d) fun _ => True := by
  refine Keeps.bind (Q := fun _ => True) (Keeps.get_bind fun _ _ => Keeps.pure trivial)
    fun b _ => ?_
  split
  · rename_i b' hadd
    obtain ⟨-, hnodes⟩ := headerOpen_of_addDecl hadd
    refine Keeps.modify fun st hst => ?_
    have hstack := hst.stack
    split
    · rename_i hframes
      have hnil : Before q b'.nodes := hnodes ▸ before_nil q
      exact ⟨hst.source, hframes ▸ hnil, hst.defs⟩
    · rename_i f fs hframes
      rw [hframes] at hstack
      exact ⟨hst.source, ⟨hstack.1.clear hnodes, hstack.2⟩, hst.defs⟩
  · exact keeps_fault ReadBefore.blind _ _

/-! ## Closing elements -/

theorem keeps_checkAfterElse (ns : List Node) :
    Keeps (ReadBefore source q) (checkAfterElse ns) fun _ => True := by
  unfold checkAfterElse
  split
  · exact keeps_fault ReadBefore.blind _ _
  · exact Keeps.pure trivial

theorem SlotsBefore.increasing_contentArgs {slots : List Arg} (h : SlotsBefore q ns slots) :
    Increasing ((contentArgs slots ns).map (·.pos)) := by
  have hslots : slots.Pairwise fun a b => a.pos ≠ b.pos :=
    (List.pairwise_map.1 h.increasing).imp Pos.ne_of_before
  have hapart : (contentArgs slots ns).Pairwise fun a b => a.pos ≠ b.pos := by
    refine (List.mergeSort_perm _ _).symm.pairwise ?_ fun hne => hne.symm
    cases ns with
    | nil => simpa using hslots
    | cons n ns =>
        dsimp only
        split
        · simpa using hslots
        · refine List.pairwise_append.2 ⟨hslots, List.pairwise_singleton _ _, fun a ha b hb => ?_⟩
          rw [List.mem_singleton.1 hb]
          exact h.apart a ha n List.mem_cons_self
  refine List.pairwise_map.2 ?_
  exact ((pairwise_contentArgs slots ns).and hapart).imp fun hab => Pos.before_of_ne hab.1 hab.2

theorem SlotsBefore.of_mem_contentArgs {slots : List Arg} (h : SlotsBefore q ns slots)
    (hns : Node.InSequence ns) : ∀ a ∈ contentArgs slots ns, a.isBlock = true ∧ a.Ordered := by
  intro a ha
  rcases mem_contentArgs ha with ha | ⟨n, ns', rfl, rfl⟩
  · exact ⟨(h.each a ha).1, (h.each a ha).2.1⟩
  · exact ⟨rfl, hns⟩

theorem FrameBefore.ordered_invocation {args slots : List Arg} (h : FrameBefore q f)
    (hkind : f.kind = .invocation args slots) :
    (Node.invocation f.pos f.name (args ++ contentArgs slots f.body.nodes)).Ordered := by
  have hopened := h.kind
  rw [hkind] at hopened
  obtain ⟨hargs, hslots⟩ := hopened
  have hblocks := hslots.of_mem_contentArgs h.body.sequence
  constructor
  · have hnone : args.filter (·.isBlock) = [] :=
      List.filter_eq_nil_iff.2 fun a ha => by simp [hargs a ha]
    have hall : (contentArgs slots f.body.nodes).filter (·.isBlock) =
        contentArgs slots f.body.nodes := List.filter_eq_self.2 fun a ha => (hblocks a ha).1
    rw [List.filter_append, hnone, hall, List.nil_append]
    exact hslots.increasing_contentArgs
  · refine Arg.allOrdered_iff.2 (List.forall_mem_append.2 ⟨fun a ha => ?_, fun a ha => ?_⟩)
    · cases a with
      | content => exact absurd (hargs _ ha) (by simp [Arg.isBlock])
      | _ => trivial
    · exact (hblocks a ha).2

theorem FrameBefore.addSlot {args slots : List Arg} (hg : FrameBefore f.pos g)
    (hkind : g.kind = .invocation args slots) (hf : FrameBefore q f) (name : Bytes) :
    FrameBefore q
      { g with kind := .invocation args (slots ++ [.content f.pos name f.body.nodes]) } := by
  have hopened := hg.kind
  rw [hkind] at hopened
  obtain ⟨hargs, hslots⟩ := hopened
  refine ⟨Pos.before_trans hg.pos hf.pos, hg.body.mono hf.pos, hargs, ?_, ?_, ?_⟩
  · rw [List.map_append]
    exact Pos.increasing_concat hslots.increasing
      (List.forall_mem_map.2 fun a ha => (hslots.each a ha).2.2)
  · refine List.forall_mem_append.2 ⟨fun a ha => ?_, List.forall_mem_singleton.2 ?_⟩
    · obtain ⟨hblock, hordered, hbefore⟩ := hslots.each a ha
      exact ⟨hblock, hordered, Pos.before_trans hbefore hf.pos⟩
    · exact ⟨rfl, hf.body.sequence, hf.pos⟩
  · refine List.forall_mem_append.2 ⟨hslots.apart, List.forall_mem_singleton.2 fun n hn => ?_⟩
    exact (Pos.ne_of_before (hg.body.before n hn)).symm

theorem ensures_deliver (hf : FrameBefore q f) :
    Ensures (ReadBefore source f.pos) (deliver f) fun _ => ReadBefore source q := by
  have hskip : Ensures (ReadBefore source f.pos) (pure () : Build Unit) fun _ =>
      ReadBefore source q := Ensures.pure fun st hst => hst.mono hf.pos
  have hfault (pos : Pos) (e : Fault) : Ensures (ReadBefore source f.pos) (Build.fault pos e)
      fun _ => ReadBefore source q := ensures_mono (keeps_fault ReadBefore.blind pos e) hf.pos
  have hnode {n : Node} (hordered : n.Ordered) (hpos : n.pos = f.pos)
      (htrim : Body.trimLeading n = n) : Ensures (ReadBefore source f.pos) (Build.addNode n)
        fun _ => ReadBefore source q := by
    rw [← hpos]
    exact ensures_addNode (spans_of_trimLeading hordered (hpos ▸ hf.pos) htrim)
  have hkind := hf.kind
  unfold deliver
  extract_lets nodes
  cases hk : f.kind with
  | definition name =>
      cases name with
      | none => exact hskip
      | some name =>
          refine Ensures.modify fun st hst => ?_
          refine ⟨hst.source, hst.stack.mono hf.pos, List.forall_mem_append.2 ⟨hst.defs, ?_⟩⟩
          exact List.forall_mem_singleton.2 hf.body.sequence
  | param decl =>
      exact ensures_deliver_param f.name (keeps_fault ReadBefore.blind _ _) hskip
        fun d _ => ensures_mono (keeps_addDecl d) hf.pos
  | slot name =>
      cases name with
      | none => exact hskip
      | some name =>
          refine Ensures.modify fun st hst => ?_
          have hstack := hst.stack
          split
          · rename_i g fs hframes
            rw [hframes] at hstack
            split
            · rename_i args slots hcall
              exact ⟨hst.source, ⟨hstack.1.addSlot hcall hf name, hstack.2⟩, hst.defs⟩
            · exact hst.mono hf.pos
          · exact hst.mono hf.pos
  | cond test otherwise =>
      rw [hk] at hkind
      refine ensures_deliver_cond f.name (fun _ => keeps_checkAfterElse _) hskip
        fun e _ => hnode (Node.ordered_cond hf.body.sequence fun ns hns => ?_) rfl rfl
      obtain ⟨⟨ns', k⟩, hother, rfl⟩ := Option.map_eq_some_iff.1 hns
      exact hkind ns' k hother
  | otherwise =>
      refine Ensures.get_bind fun st hst => ?_
      have hstack := hst.stack
      split
      · rename_i g fs hframes
        rw [hframes] at hstack
        split
        · rename_i test hg
          have hother : OpenedBefore q g.body.nodes
              (.cond test (some (nodes, g.body.nodes.length))) := by
            intro ns k hns
            cases hns
            exact hf.body.sequence
          have houter := hstack.1.mono hf.pos
          exact ⟨hst.source, ⟨⟨houter.pos, houter.body, hother⟩, hstack.2⟩, hst.defs⟩
        · exact hfault _ _ st hst
        · exact hfault _ _ st hst
      · exact hfault _ _ st hst
  | loop head =>
      cases head with
      | none => exact hskip
      | some head => exact hnode hf.body.sequence rfl rfl
  | invocation args slots => exact hnode (hf.ordered_invocation hk) rfl rfl

theorem keeps_closeTop : Keeps (ReadBefore source q) closeTop fun _ => True := by
  refine Ensures.get_bind fun st hst => ?_
  split
  · exact ⟨hst, trivial⟩
  · rename_i f fs hframes
    have hstack := hst.stack
    rw [hframes] at hstack
    have hrest : ReadBefore source f.pos { st with frames := fs } :=
      ⟨hst.source, hstack.2, hst.defs⟩
    exact ⟨ensures_deliver hstack.1 _ hrest, trivial⟩

/-! ## Whole sources -/

variable {o k : Nat} {s : Bytes} {t : Token} {ts : List Token}

theorem fresh_behind_blanks {w : Bytes} (h : Pos.Fresh source o)
    (hw : ∀ c ∈ w, Name.isSpace c = true) (hlead : w <+: source.drop o) :
    Pos.Fresh source (o + w.length) := by
  rcases List.eq_nil_or_concat w with rfl | ⟨u, c, rfl⟩
  · exact h
  · rw [List.concat_eq_append] at hw hlead ⊢
    obtain ⟨z, hz⟩ := hlead
    rw [List.length_append, List.length_singleton]
    refine .inr (.of_drop rfl (.of_get (c := c) ?_ (Name.lt_of_isSpace (hw c (by simp)))))
    simp [← hz]

theorem spans_text (hfresh : Pos.Fresh source o) (hne : s ≠ [])
    (hbegins : Begins ((source.drop o).take k) s) :
    Spans (Pos.ofOffset source (o + k)) (.literal (Pos.ofOffset source o) s) := by
  have hspan := hbegins.length_pos hne
  rw [List.length_take, List.length_drop] at hspan
  refine ⟨trivial, hfresh.before (by omega) (by omega), fun hblank => ?_⟩
  obtain ⟨v, hv, hsplit, -⟩ := hbegins.trim hblank
  have hlen := congrArg List.length hsplit
  have hpos := List.length_pos_iff.2 hv
  have hspace : ∀ c ∈ s.takeWhile Name.isSpace, Name.isSpace c = true :=
    List.all_eq_true.1 List.all_takeWhile
  have hlead : s.takeWhile Name.isSpace <+: source.drop o :=
    (hsplit ▸ List.prefix_append _ v).trans (List.take_prefix k _)
  have hfresh' := fresh_behind_blanks hfresh hspace hlead
  rw [List.length_take, List.length_drop, List.length_append] at hlen
  change (Body.skipBlanks _ _).before (Pos.ofOffset source o) = false ∧
    (Body.skipBlanks _ _).before _ = true
  rw [skipBlanks_ofOffset hspace hlead]
  generalize (s.takeWhile Name.isSpace).length = m at hlen hfresh'
  refine ⟨?_, hfresh'.before (by omega) (by omega)⟩
  rcases Nat.eq_zero_or_pos m with rfl | hm
  · exact Pos.not_before_self _
  · exact Pos.not_before_of_before (hfresh.before (by omega) (by omega))

theorem asciiAt_of_stands (ht : t.Stands source) (hmark : isText t = false) :
    AsciiAt source t.offset := by
  cases t with
  | text => cases hmark
  | interpolation o s =>
      obtain ⟨z, hz⟩ := ht
      exact asciiAt_of_drop (c := '\x7b'.toUInt8) hz.symm (by decide)
  | opening o name attrs problem selfClosing =>
      obtain ⟨z, hz⟩ := ht.1
      exact asciiAt_of_drop (c := '<'.toUInt8) hz.symm (by decide)
  | closing o name malformed =>
      obtain ⟨z, hz⟩ := ht
      exact asciiAt_of_drop (c := '<'.toUInt8) hz.symm (by decide)

theorem openedBefore_of_openedBy {name : Bytes} {attrs : List Attr} {r : Opened × Bool}
    (h : OpenedBy source p name attrs r) : OpenedBefore q [] r.1 := by
  cases h with
  | cond => exact nofun
  | invocation _ hargs =>
      refine ⟨fun arg harg => ?_, .nil, nofun, nofun⟩
      obtain ⟨a, -, hof⟩ := hargs arg harg
      exact hof.isBlock
  | _ => trivial

theorem ensures_step (hmark : isText t = false)
    (hpq : (Pos.ofOffset source t.offset).before q = true) :
    Ensures (ReadBefore source (Pos.ofOffset source t.offset)) (step t)
      fun _ => ReadBefore source q := by
  have hfault (pos : Pos) (e : Fault) :
      Ensures (ReadBefore source (Pos.ofOffset source t.offset)) (Build.fault pos e)
        fun _ => ReadBefore source q := ensures_mono (keeps_fault ReadBefore.blind pos e) hpq
  cases t with
  | text => cases hmark
  | interpolation o s =>
      refine (keeps_posOf ReadBefore.blind _).bind_ensures fun pos hpos => ?_
      subst hpos
      split
      · exact hfault _ _
      split
      · exact hfault _ _
      split
      · rename_i e _
        exact ensures_addNode (n := .interpolation _ e none)
          (spans_of_trimLeading trivial hpq rfl)
      · exact hfault _ _
  | closing o name malformed =>
      have hclose : Keeps (ReadBefore source (Pos.ofOffset source o))
          (step (.closing o name malformed)) fun _ => True :=
        (keeps_posOf ReadBefore.blind _).bind fun _ _ => Keeps.get_bind fun _ _ =>
          keeps_closeTag ReadBefore.blind keeps_closeTop _ _ _ _
      exact ensures_mono hclose hpq
  | opening o name attrs problem selfClosing =>
      refine (keeps_posOf ReadBefore.blind _).bind_ensures fun pos hpos => ?_
      subst hpos
      extract_lets afterProblem
      have hafterProblem : ∀ r, Ensures (ReadBefore source (Pos.ofOffset source o))
          (afterProblem r) fun _ => ReadBefore source q := by
        intro r
        refine (keeps_openElement ReadBefore.blind _ _ _).bind_ensures fun opened hopened => ?_
        obtain ⟨kind, allowParams⟩ := opened
        have hframe : FrameBefore q ⟨kind, name, Pos.ofOffset source o, .empty allowParams⟩ :=
          ⟨hpq, before_nil q, openedBefore_of_openedBy hopened⟩
        dsimp only
        split
        · exact ensures_deliver hframe
        · exact Ensures.modify fun st hst => ⟨hst.source, ⟨hframe, hst.stack⟩, hst.defs⟩
      split
      · exact (keeps_fault ReadBefore.blind _ _).bind_ensures fun r _ => hafterProblem r
      · exact (keeps_posOf ReadBefore.blind _).bind_ensures fun _ _ =>
          (keeps_fault ReadBefore.blind _ _).bind_ensures fun r _ => hafterProblem r
      · exact hafterProblem ()

theorem ensures_run_cons {t : Token} {ts : List Token}
    (hstep : Ensures (ReadBefore source p) (step t) fun _ => ReadBefore source q)
    (hrest : Ensures (ReadBefore source q) (run ts) fun _ st => ∃ q, ReadBefore source q st) :
    Ensures (ReadBefore source p) (run (t :: ts)) fun _ st => ∃ q, ReadBefore source q st := by
  refine hstep.bind fun _ => Ensures.get_bind fun st hst => ?_
  split
  · exact hrest st hst
  · exact ⟨q, hst⟩

theorem ensures_run (h : Course source o ts)
    (hfresh : ∀ t ∈ ts.head?, isText t = true → Pos.Fresh source o) :
    Ensures (ReadBefore source (Pos.ofOffset source o)) (run ts)
      fun _ st => ∃ q, ReadBefore source q st := by
  induction h with
  | nil => exact Ensures.pure fun st hst => ⟨_, hst⟩
  | text hne hbegins hnext _ ih =>
      have hspans := spans_text (hfresh _ rfl rfl) hne hbegins
      refine ensures_run_cons ((keeps_posOf ReadBefore.blind _).bind_ensures fun pos hpos => ?_)
        (ih fun t ht htext => ?_)
      · subst hpos
        exact ensures_addNode hspans
      · rw [hnext t ht] at htext
        cases htext
  | mark ho hmark hstands hn hends _ ih =>
      subst ho
      obtain ⟨c, hc, hascii⟩ := asciiAt_of_stands hstands hmark
      have hbefore := Pos.before_ofOffset hc hascii (Nat.lt_add_of_pos_right hn)
      exact ensures_run_cons (ensures_step hmark hbefore) (ih fun _ _ _ => .inr hends)

theorem readBefore_readAll (file source : Bytes) :
    ∃ q, ReadBefore source q (readAll file source) := by
  have hread : Ensures (ReadBefore source (Pos.ofOffset source 0)) (do
      run (lex source)
      closeAll ((← get).frames.length + 1)) fun _ st => ∃ q, ReadBefore source q st := by
    refine (ensures_run (course_lex source) fun _ _ _ => .inl rfl).bind fun _ =>
      Ensures.get_bind fun st hst => ?_
    obtain ⟨q, hq⟩ := hst
    exact ⟨q, (keeps_closeAll ReadBefore.blind keeps_closeTop _ st hq).1⟩
  exact hread _ ⟨rfl, before_nil _, nofun⟩

theorem inSequence_parse (file path source : Bytes) :
    ∀ d ∈ (parse file path source).1.defs, Node.InSequence d.body := by
  obtain ⟨q, hst⟩ := readBefore_readAll file source
  rw [parse_eq]
  generalize readAll file source = st at hst
  have hdefs : ∀ d ∈ st.defs.map ({ · with template := path }), Node.InSequence d.body :=
    List.forall_mem_map.2 hst.defs
  dsimp only
  split
  · exact List.forall_mem_cons.2 ⟨hst.stack.inSequence_root, hdefs⟩
  · exact hdefs

theorem isRoot_parse (file path source : Bytes) :
    ∀ d ∈ (parse file path source).1.defs, d.isRoot = true → d.pos = Pos.ofOffset source 0 := by
  have hst := builderMeets_readAll file (closed_standing source)
  rw [parse_eq]
  generalize readAll file source = st at hst
  have hdefs : ∀ d ∈ st.defs.map ({ · with template := path }), d.isRoot = true →
      d.pos = Pos.ofOffset source 0 :=
    List.forall_mem_map.2 fun d hd hroot => by simp [(hst.defs d hd).1] at hroot
  dsimp only
  split
  · exact List.forall_mem_cons.2 ⟨fun _ => (Pos.ofOffset_zero source).symm, hdefs⟩
  · exact hdefs

/-- Every part of a template stands where the source reads it, its root tag at the start of the
source, and every sequence in it is in the order of the source. -/
theorem places_parse (file path source : Bytes) :
    let t := (parse file path source).1
    (standing source).Template t ∧
      (∀ d ∈ t.defs, d.isRoot = true → d.pos = Pos.ofOffset source 0) ∧
      ∀ d ∈ t.defs, Node.InSequence d.body :=
  ⟨standing_parse file path source, isRoot_parse file path source,
    inSequence_parse file path source⟩

def blankHeader : Bytes := " <t:param name=\"x\"/>y"

/-- The root tag stands where no tag, no attribute, no interpolation and no text of it is read. -/
theorem places_parse_blankHeader :
    ∃ d ∈ (parse "a" "a" blankHeader).1.defs, d.body = [.literal ⟨1, 21⟩ "y"] ∧
      ∀ o, d.pos = Pos.ofOffset blankHeader o →
        blankHeader[o]? ≠ some '<'.toUInt8 ∧ Name.leading (blankHeader.drop o) = [] ∧
          blankHeader[o]? ≠ some '\x7b'.toUInt8 ∧ blankHeader[o]? ≠ some 'y'.toUInt8 := by
  have hlex : lex blankHeader = [.text 0 " ",
      .opening 1 "t:param" [⟨10, "name", .quoted 16 "x"⟩] none true, .text 20 "y"] := by cbv
  have hafter : (afterTokens "a" blankHeader).frames = [] ∧ (afterTokens "a" blankHeader).root =
      ⟨true, false, [⟨⟨1, 2⟩, "x", .unknown, none⟩], [.literal ⟨1, 21⟩ "y"]⟩ := by
    rw [afterTokens, hlex]
    exact ⟨by cbv, by cbv⟩
  have hroot : (readAll "a" blankHeader).root =
      ⟨true, false, [⟨⟨1, 2⟩, "x", .unknown, none⟩], [.literal ⟨1, 21⟩ "y"]⟩ := by
    rw [readAll_eq, hafter.1, closeAll_of_nil hafter.1, hafter.2]
  have hdefs : ⟨"a", true, .start, (readAll "a" blankHeader).root.decls,
      (readAll "a" blankHeader).root.nodes, "a", "a"⟩ ∈ (parse "a" "a" blankHeader).1.defs := by
    rw [parse_eq]
    refine List.mem_append_left _ ?_
    rw [Builder.hasRoot, hroot]
    exact List.mem_singleton_self _
  refine ⟨_, hdefs, congrArg Body.nodes hroot, fun o ho => ?_⟩
  obtain rfl : o = 0 := by
    rcases Nat.eq_zero_or_pos o with hzero | hpos
    · exact hzero
    · have hblank : blankHeader[0]? = some ' '.toUInt8 := rfl
      have hbefore := Pos.before_ofOffset hblank (by decide) hpos
      rw [Pos.ofOffset_zero] at hbefore
      exact absurd ho (Pos.ne_of_before hbefore)
  exact ⟨by decide, by decide, by decide, by decide⟩

end Template

end TagLoom

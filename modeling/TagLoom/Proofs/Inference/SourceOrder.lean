import TagLoom.Proofs.Inference.Order
import TagLoom.Proofs.Template.Tree

/-!
# Templates without faults are read in the order of their source

While there are no faults, everything in an open element stands behind its tag, and before the tag
of the element that is open in it.  What is read in the body of a tag is therefore in the order of
the source.
-/

namespace TagLoom.Template

open Inference
open Pos (Between Ascending)

variable {source : Bytes} {a lo mid hi hi' : Nat}

/-! ## Readings without faults -/

/-- A condition on the reading of a source that has to hold as long as there are no faults. -/
structure WhileClean (source : Bytes) (G : Builder → Prop) (st : Builder) : Prop where
  source : st.source = source
  aborted : st.aborted = true → st.faults ≠ []
  clean : st.faults = [] → G st

variable {G H : Builder → Prop} {α : Type}

theorem WhileClean.blind : Blind source (WhileClean source G) where
  source := fun _ hst => hst.source
  faults := fun _ _ _ hne hst => ⟨hst.source, fun _ => hne, fun hnil => absurd hnil hne⟩

theorem WhileClean.imp {st : Builder} (hst : WhileClean source G st)
    (h : st.faults = [] → G st → H st) : WhileClean source H st :=
  ⟨hst.source, hst.aborted, fun hnil => h hnil (hst.clean hnil)⟩

theorem ensures_fault (pos : Pos) (f : Fault) :
    Ensures (WhileClean source G) (Build.fault pos f) fun _ => WhileClean source H := by
  refine Ensures.modify fun st hst => ?_
  split
  · rename_i haborted
    exact ⟨hst.source, hst.aborted, fun hnil => absurd hnil (hst.aborted haborted)⟩
  split
  · exact ⟨hst.source, fun _ => List.cons_ne_nil _ _, nofun⟩
  · exact ⟨hst.source, fun _ => List.cons_ne_nil _ _, nofun⟩

theorem ensures_modify {u : Builder → Builder}
    (hu : ∀ st, (u st).source = st.source ∧ (u st).aborted = st.aborted ∧
      (u st).faults = st.faults) (h : ∀ st, G st → H (u st)) :
    Ensures (WhileClean source G) (modify u) fun _ => WhileClean source H := by
  refine Ensures.modify fun st hst => ?_
  obtain ⟨hsource, haborted, hfaults⟩ := hu st
  exact ⟨hsource.trans hst.source, by rw [haborted, hfaults]; exact hst.aborted,
    fun hnil => h st (hst.clean (hfaults ▸ hnil))⟩

/-! ## Open elements -/

/-- What an open element holds beside its nodes stands between two offsets. -/
def OpenedPlaced (source : Bytes) (lo hi : Nat) (b : Body) : Opened → Prop
  | .cond _ none => b.headerOpen = false
  | .cond _ (some (ns, n)) => b.headerOpen = false ∧ NodesPlaced source lo hi ns ∧
      n ≤ b.nodes.length ∧ ∀ x ∈ b.nodes.take n, ∀ y ∈ ns, Before x y
  | .invocation args slots => b.headerOpen = false ∧ CallPlaced source lo hi args slots b.nodes
  | .definition _ | .param _ | .slot _ | .otherwise | .loop _ => True

/-- An element that was opened at one offset and is still open at another. -/
structure FramePlaced (source : Bytes) (a hi : Nat) (f : Frame) : Prop where
  lt : a < hi
  pos : Between source a (a + 1) f.pos
  body : NodesPlaced source (a + 1) hi f.body.nodes
  kind : OpenedPlaced source (a + 1) hi f.body f.kind

theorem OpenedPlaced.mono {b : Body} {kind : Opened} (h : OpenedPlaced source lo hi b kind)
    (hhi : hi ≤ hi') : OpenedPlaced source lo hi' b kind := by
  cases kind with
  | cond test otherwise =>
      rcases otherwise with _ | ⟨ns, n⟩
      · exact h
      · exact ⟨h.1, h.2.1.mono (Nat.le_refl lo) hhi, h.2.2⟩
  | invocation args slots => exact ⟨h.1, h.2.mono (Nat.le_refl lo) hhi⟩
  | _ => trivial

variable {f : Frame} {fs : List Frame} {n : Node} {root : Body} {st : Builder}

theorem FramePlaced.mono (h : FramePlaced source a hi f) (hhi : hi ≤ hi') :
    FramePlaced source a hi' f :=
  ⟨Nat.lt_of_lt_of_le h.lt hhi, h.pos, h.body.mono (Nat.le_refl _) hhi, h.kind.mono hhi⟩

theorem nodePlaced_trimLeading (h : NodePlaced source lo hi n) :
    NodePlaced source lo hi (Body.trimLeading n) := by
  cases n with
  | literal pos s => exact ⟨.nil, nofun⟩
  | _ => exact h

theorem add_of_not_headerOpen {b : Body} (h : b.headerOpen = false) (n : Node) :
    b.add n = { b with nodes := b.nodes ++ [n] } := by
  rw [Body.add, if_neg (by simp [h])]

theorem nodesPlaced_add {b : Body} (hb : NodesPlaced source lo mid b.nodes)
    (hn : NodePlaced source mid hi n) (hlo : lo ≤ mid) (hhi : mid ≤ hi) :
    NodesPlaced source lo hi (b.add n).nodes := by
  unfold Body.add
  repeat' split
  · exact hb.concat hn hlo hhi
  · exact hb.concat hn hlo hhi
  · have hnil : NodesPlaced source lo mid [] := .nil
    exact hnil.concat (nodePlaced_trimLeading hn) hlo hhi
  · exact hb.concat hn hlo hhi

theorem OpenedPlaced.add {b : Body} {kind : Opened} (h : OpenedPlaced source lo mid b kind)
    (hn : NodePlaced source mid hi n) (hlo : lo ≤ mid) (hhi : mid ≤ hi) :
    OpenedPlaced source lo hi (b.add n) kind := by
  cases kind with
  | cond test otherwise =>
      rcases otherwise with _ | ⟨ns, k⟩
      · rw [add_of_not_headerOpen h]
        exact h
      · obtain ⟨hheader, hns, hk, hbefore⟩ := h
        rw [add_of_not_headerOpen hheader]
        refine ⟨hheader, hns.mono (Nat.le_refl lo) hhi, ?_, ?_⟩
        · rw [List.length_append]
          exact Nat.le_add_right_of_le hk
        · rwa [List.take_append_of_le_length hk]
  | invocation args slots =>
      rw [add_of_not_headerOpen h.1]
      exact ⟨h.1, h.2.concat hn hlo hhi⟩
  | _ => trivial

theorem FramePlaced.add (hf : FramePlaced source a mid f) (hn : NodePlaced source mid hi n)
    (hhi : mid ≤ hi) : FramePlaced source a hi { f with body := f.body.add n } :=
  ⟨Nat.lt_of_lt_of_le hf.lt hhi, hf.pos, nodesPlaced_add hf.body hn hf.lt hhi,
    hf.kind.add hn hf.lt hhi⟩

theorem FramePlaced.addDecl (hf : FramePlaced source a hi f) {b : Body} {d : Declaration}
    (h : f.body.addDecl d = .ok b) : FramePlaced source a hi { f with body := b } := by
  obtain ⟨hopen, hnodes⟩ := headerOpen_of_addDecl h
  refine ⟨hf.lt, hf.pos, hnodes ▸ NodesPlaced.nil, ?_⟩
  have hkind := hf.kind
  cases hk : f.kind with
  | cond test otherwise =>
      rw [hk] at hkind
      rcases otherwise with _ | ⟨ns, n⟩
      · exact absurd hopen (by simp [show f.body.headerOpen = false from hkind])
      · exact absurd hopen (by simp [hkind.1])
  | invocation args slots =>
      rw [hk] at hkind
      exact absurd hopen (by simp [hkind.1])
  | _ => trivial

/-- Open elements, innermost first, and the root around them: each stands before the tag of the next,
and the innermost before an offset. -/
def StackPlaced (source : Bytes) : Nat → List Frame → Body → Prop
  | hi, [], root => NodesPlaced source 0 hi root.nodes
  | hi, f :: fs, root => ∃ a, FramePlaced source a hi f ∧ StackPlaced source a fs root

theorem StackPlaced.mono (h : StackPlaced source hi fs root) (hhi : hi ≤ hi') :
    StackPlaced source hi' fs root := by
  cases fs with
  | nil => exact NodesPlaced.mono h (Nat.le_refl 0) hhi
  | cons f fs =>
      obtain ⟨a, hf, hfs⟩ := h
      exact ⟨a, hf.mono hhi, hfs⟩

theorem StackPlaced.nodes_root (h : StackPlaced source hi fs root) :
    ∃ hi, NodesPlaced source 0 hi root.nodes := by
  induction fs generalizing hi with
  | nil => exact ⟨hi, h⟩
  | cons f fs ih =>
      obtain ⟨a, -, hfs⟩ := h
      exact ih hfs

/-- The reading of a source up to an offset: the open elements are in order, and so are the reads of
the tags that are finished. -/
structure Placed (source : Bytes) (hi : Nat) (st : Builder) : Prop where
  stack : StackPlaced source hi st.frames st.root
  defs : ∀ d ∈ st.defs, (places (bodyReads [] d.body)).Pairwise fun p q => p.before q = true

theorem Placed.mono (h : Placed source hi st) (hhi : hi ≤ hi') : Placed source hi' st :=
  ⟨h.stack.mono hhi, h.defs⟩

/-- The reading of a source up to an offset is in order as long as there are no faults. -/
abbrev PlacedUpTo (source : Bytes) (hi : Nat) : Builder → Prop :=
  WhileClean source (Placed source hi)

/-- Between the tokens of a source and after a part of the reading. -/
abbrev Moves (source : Bytes) (lo hi : Nat) (x : Build α) : Prop :=
  Ensures (PlacedUpTo source lo) x fun _ => PlacedUpTo source hi

/-! ## Single actions -/

theorem Placed.modifyBody {u : Body → Body} (h : Placed source mid st)
    (hroot : st.frames = [] → NodesPlaced source 0 mid st.root.nodes →
      NodesPlaced source 0 hi (u st.root).nodes)
    (hframe : ∀ f fs a, st.frames = f :: fs → FramePlaced source a mid f →
      FramePlaced source a hi { f with body := u f.body }) :
    Placed source hi ((Build.modifyBody u).run st).2 := by
  obtain ⟨hstack, hdefs⟩ := h
  obtain ⟨hframes, hrun⟩ | ⟨f, fs, hframes, hrun⟩ := modifyBody_cases u st
  · rw [hrun]
    rw [hframes] at hstack
    exact ⟨hframes ▸ hroot hframes hstack, hdefs⟩
  · rw [hrun]
    rw [hframes] at hstack
    obtain ⟨a, hf, hfs⟩ := hstack
    exact ⟨⟨a, hframe f fs a hframes hf, hfs⟩, hdefs⟩

theorem whileClean_modifyBody {u : Body → Body} (hst : WhileClean source G st)
    (h : G st → H ((Build.modifyBody u).run st).2) :
    WhileClean source H ((Build.modifyBody u).run st).2 := by
  have hfields : ∀ st, ((Build.modifyBody u).run st).2.source = st.source ∧
      ((Build.modifyBody u).run st).2.aborted = st.aborted ∧
        ((Build.modifyBody u).run st).2.faults = st.faults := by
    intro st
    dsimp only [Build.modifyBody, modify, modifyGet, MonadStateOf.modifyGet, StateT.modifyGet,
      StateT.run, Pure.pure]
    split <;> exact ⟨rfl, rfl, rfl⟩
  obtain ⟨hsource, haborted, hfaults⟩ := hfields st
  exact ⟨hsource.trans hst.source, by rw [haborted, hfaults]; exact hst.aborted,
    fun hnil => h (hst.clean (hfaults ▸ hnil))⟩

theorem moves_addNode (mid hi : Nat) (n : Node) :
    Ensures (WhileClean source fun st =>
        Placed source mid st ∧ NodePlaced source mid hi n ∧ mid ≤ hi)
      (Build.addNode n) fun _ => PlacedUpTo source hi := by
  intro st hst
  refine whileClean_modifyBody hst fun ⟨hplaced, hn, hhi⟩ => hplaced.modifyBody ?_ ?_
  · exact fun _ hroot => nodesPlaced_add hroot hn (Nat.zero_le mid) hhi
  · exact fun _ _ _ _ hf => hf.add hn hhi

theorem moves_addDecl (d : Declaration) : Moves source hi hi (Build.addDecl d) := by
  intro st hst
  obtain ⟨e, -, hrun⟩ | ⟨b, hadd, hrun⟩ := addDecl_cases d st
  · rw [hrun]
    exact ensures_fault d.pos e st hst
  · rw [hrun]
    refine whileClean_modifyBody hst fun hplaced => hplaced.modifyBody ?_ ?_
    · exact fun _ _ => (headerOpen_of_addDecl hadd).2 ▸ NodesPlaced.nil
    · intro f fs a hframes hf
      rw [hframes] at hadd
      exact hf.addDecl hadd

/-! ## Closing elements -/

theorem ensures_checkAfterElse (ns : List Node) :
    Ensures (WhileClean source G) (checkAfterElse ns) fun _ =>
      WhileClean source fun st => G st ∧ ∀ n ∈ ns, n.isBlankLiteral = true := by
  unfold checkAfterElse
  cases hfind : ns.find? (!·.isBlankLiteral) with
  | some n => exact ensures_fault _ _
  | none =>
      refine Ensures.pure fun st hst => hst.imp fun _ h => ⟨h, fun n hn => ?_⟩
      simpa using List.find?_eq_none.1 hfind n hn

/-- An element that is in order while there are no faults, and everything around it. -/
abbrev Closing (source : Bytes) (a hi : Nat) (f : Frame) : Builder → Prop :=
  WhileClean source fun st => Placed source a st ∧ FramePlaced source a hi f

theorem FramePlaced.cond {test : Option Expression} {e : Expression} {other : List Node} {k : Nat}
    (hf : FramePlaced source a hi f) (hkind : f.kind = .cond test (some (other, k)))
    (hblank : ∀ n ∈ f.body.nodes.drop k, n.isBlankLiteral = true) :
    NodePlaced source a hi (.cond f.pos e f.body.nodes (some other)) := by
  have hopened := hf.kind
  rw [hkind] at hopened
  obtain ⟨-, hother, -, hbefore⟩ := hopened
  refine nodePlaced_cond_else hf.pos hf.lt e hf.body hother fun n hn m hm => ?_
  rw [← List.take_append_drop k f.body.nodes] at hn
  rcases List.mem_append.1 hn with hn | hn
  · exact hbefore n hn m hm
  · intro p hp
    rw [spots_of_blank (hblank n hn)] at hp
    cases hp

theorem FramePlaced.otherwise {test : Option Expression} {g : Frame} {lo : Nat}
    (hg : FramePlaced source lo a g) (hkind : g.kind = .cond test none)
    (hf : FramePlaced source a hi f) : FramePlaced source lo hi
      { g with kind := .cond test (some (f.body.nodes, g.body.nodes.length)) } := by
  have hheader := hg.kind
  rw [hkind] at hheader
  have hle : lo + 1 ≤ a + 1 := Nat.le_succ_of_le hg.lt
  refine ⟨Nat.lt_trans hg.lt hf.lt, hg.pos, hg.body.mono (Nat.le_refl _) (Nat.le_of_lt hf.lt),
    hheader, hf.body.mono hle (Nat.le_refl hi), Nat.le_refl _, fun x hx y hy => ?_⟩
  rw [List.take_length] at hx
  exact (hg.body.each x hx).before ((hf.body.each y hy).mono (Nat.le_succ a) (Nat.le_refl hi))

theorem FramePlaced.slot {args slots : List Arg} {g : Frame} {lo : Nat}
    (hg : FramePlaced source lo a g) (hkind : g.kind = .invocation args slots)
    (hf : FramePlaced source a hi f) (pos : Pos) (name : Bytes) : FramePlaced source lo hi
      { g with kind := .invocation args (slots ++ [.content pos name f.body.nodes]) } := by
  have hopened := hg.kind
  rw [hkind] at hopened
  obtain ⟨hheader, hcall⟩ := hopened
  have hle := Nat.le_of_lt hf.lt
  exact ⟨Nat.lt_trans hg.lt hf.lt, hg.pos, hg.body.mono (Nat.le_refl _) hle, hheader,
    hcall.addSlot (hf.body.mono (Nat.le_succ a) (Nat.le_refl hi)) hg.lt hle pos name⟩

theorem moves_deliver (f : Frame) :
    Ensures (Closing source a hi f) (deliver f) fun _ => PlacedUpTo source hi := by
  have hle {st : Builder} (h : Placed source a st ∧ FramePlaced source a hi f) :
      Placed source hi st := h.1.mono (Nat.le_of_lt h.2.lt)
  have hskip : Ensures (Closing source a hi f) (pure () : Build Unit) fun _ =>
      PlacedUpTo source hi := Ensures.pure fun st hst => hst.imp fun _ => hle
  have hnode {n : Node} (hn : FramePlaced source a hi f → NodePlaced source a hi n) :
      Ensures (Closing source a hi f) (Build.addNode n) fun _ => PlacedUpTo source hi :=
    (moves_addNode a hi n).mono
      (fun st hst => hst.imp fun _ h => ⟨h.1, hn h.2, Nat.le_of_lt h.2.lt⟩) fun _ _ h => h
  unfold deliver
  extract_lets nodes
  cases hkind : f.kind with
  | definition name =>
      cases name with
      | none => exact hskip
      | some name =>
          refine ensures_modify (fun _ => ⟨rfl, rfl, rfl⟩) fun st hst => ?_
          refine ⟨(hle hst).stack, List.forall_mem_append.2 ⟨hst.1.defs, ?_⟩⟩
          exact List.forall_mem_singleton.2 (hst.2.body.ascending []).order
  | param decl =>
      exact ensures_deliver_param f.name (keeps_fault WhileClean.blind _ _) hskip fun d _ =>
        (moves_addDecl d).mono (fun st hst => hst.imp fun _ => hle) fun _ _ h => h
  | slot name =>
      cases name with
      | none => exact hskip
      | some name =>
          refine ensures_modify (u := addSlot f.pos name nodes) (fun st => ?_) fun st hst => ?_
          · unfold addSlot
            repeat' split
            all_goals exact ⟨rfl, rfl, rfl⟩
          · have hstack := hst.1.stack
            unfold addSlot
            split
            · rename_i g fs hframes
              split
              · rename_i args slots hcall
                rw [hframes] at hstack
                obtain ⟨lo, hg, hfs⟩ := hstack
                exact ⟨⟨lo, hg.slot hcall hst.2 f.pos name, hfs⟩, hst.1.defs⟩
              · exact hle hst
            · exact hle hst
  | cond test otherwise =>
      rcases otherwise with _ | ⟨other, k⟩
      · cases test with
        | none => exact hskip
        | some e => exact hnode fun hf => nodePlaced_cond hf.pos hf.lt e hf.body
      · refine (ensures_checkAfterElse (nodes.drop k)).bind fun _ => ?_
        cases test with
        | none => exact Ensures.pure fun st hst => hst.imp fun _ h => hle h.1
        | some e =>
            refine (moves_addNode a hi _).mono (fun st hst => hst.imp fun _ h => ?_)
              fun _ _ h => h
            exact ⟨h.1.1, h.1.2.cond hkind h.2, Nat.le_of_lt h.1.2.lt⟩
  | otherwise =>
      refine Ensures.get_bind fun st hst => ?_
      split
      · rename_i g fs hframes
        split
        · rename_i test hg
          refine ⟨hst.source, hst.aborted, fun hnil => ?_⟩
          obtain ⟨hplaced, hf⟩ := hst.clean hnil
          have hstack := hplaced.stack
          rw [hframes] at hstack
          obtain ⟨lo, hplacedg, hfs⟩ := hstack
          exact ⟨⟨lo, hplacedg.otherwise hg hf, hfs⟩, hplaced.defs⟩
        · exact ensures_fault _ _ st hst
        · exact ensures_fault _ _ st hst
      · exact ensures_fault _ _ st hst
  | loop head =>
      cases head with
      | none => exact hskip
      | some head => exact hnode fun hf => nodePlaced_loop hf.pos hf.lt _ _ _ hf.body
  | invocation args slots =>
      refine hnode fun hf => ?_
      have hopened := hf.kind
      rw [hkind] at hopened
      exact nodePlaced_call hf.pos hf.lt f.name hopened.2

theorem moves_closeTop (hi : Nat) : Moves source hi hi closeTop := by
  refine Ensures.get_bind fun st hst => ?_
  split
  · exact hst
  · rename_i f fs hframes
    obtain ⟨a, hclosing⟩ : ∃ a, Closing source a hi f { st with frames := fs } := by
      by_cases hnil : st.faults = []
      · have hplaced := hst.clean hnil
        have hstack := hplaced.stack
        rw [hframes] at hstack
        obtain ⟨a, hf, hfs⟩ := hstack
        exact ⟨a, hst.source, hst.aborted, fun _ => ⟨⟨hfs, hplaced.defs⟩, hf⟩⟩
      · exact ⟨0, hst.source, hst.aborted, fun h => absurd h hnil⟩
    exact moves_deliver f _ hclosing

theorem keeps_closeTop_placed (hi : Nat) :
    Keeps (PlacedUpTo source hi) closeTop fun _ => True :=
  Ensures.weaken (moves_closeTop hi) fun _ _ hst => ⟨hst, trivial⟩

theorem moves_closeTag (pos : Pos) (name : Bytes) (malformed : Bool) (fuel : Nat) :
    Moves source hi hi (closeTag pos name malformed fuel) :=
  Ensures.weaken (keeps_closeTag WhileClean.blind (keeps_closeTop_placed hi) pos name malformed fuel)
    fun _ _ hst => hst.1

theorem moves_closeAll (fuel : Nat) : Moves source hi hi (closeAll fuel) :=
  Ensures.weaken (keeps_closeAll WhileClean.blind (keeps_closeTop_placed hi) fuel)
    fun _ _ hst => hst.1

/-! ## Opening elements -/

variable {I : Builder → Prop}

theorem places_partReads_concat (parts : List Part) (part : Part) :
    places (partReads [] (parts ++ [part])) =
      places (partReads [] parts) ++ places (partReads [] [part]) := by
  rw [partReads, List.filterMap_append, places_append]
  rfl

theorem keeps_partsOf (hI : Blind source I) {base n : Nat} (pieces : List Piece)
    (hpieces : (holes pieces).Pairwise (· < ·)) :
    ∀ k parts, (∀ i ∈ holes pieces, k ≤ i ∧ i < n ∧ AsciiAt source (base + i)) → k ≤ n →
      Ascending source base (base + k) (places (partReads [] parts)) →
      Keeps I (pieces.foldlM (fun parts piece => do
        match piece with
        | .literal offset s => return parts ++ [Part.literal (← Build.posOf (base + offset)) s]
        | .interpolation offset source =>
            let pos ← Build.posOf (base + offset)
            if Name.isBlank source then
              Build.fault pos .emptyInterpolation
              return parts
            else match Expression.parse source with
              | .ok e => return parts ++ [Part.interpolation pos e]
              | .error err =>
                  Build.fault pos (.badInterpolation source err)
                  return parts) parts) fun parts =>
        Ascending source base (base + n) (places (partReads [] parts)) := by
  induction pieces with
  | nil =>
      exact fun k parts _ hk h =>
        Keeps.pure (h.mono (Nat.le_refl _) (Nat.add_le_add_left hk _))
  | cons piece pieces ih =>
      intro k parts hat hk hparts
      rw [List.foldlM_cons]
      cases piece with
      | literal offset s =>
          have hrest := ih hpieces k
          refine Keeps.bind (Q := fun parts =>
            Ascending source base (base + k) (places (partReads [] parts))) ?_
            fun parts hparts => hrest parts hat hk hparts
          refine (keeps_posOf hI _).bind fun pos _ => Keeps.pure ?_
          rw [places_partReads_concat]
          exact (List.append_nil (places (partReads [] parts))).symm ▸ hparts
      | interpolation offset s =>
          obtain ⟨hlt, hpieces⟩ := List.pairwise_cons.1 hpieces
          obtain ⟨⟨hle, hn, hascii⟩, hat⟩ := List.forall_mem_cons.1 hat
          have hrest := ih hpieces (offset + 1)
          have hskip : Ascending source base (base + (offset + 1)) (places (partReads [] parts)) :=
            hparts.mono (Nat.le_refl _) (by omega)
          refine Keeps.bind (Q := fun parts =>
            Ascending source base (base + (offset + 1)) (places (partReads [] parts))) ?_
            fun parts hparts => hrest parts
              (fun i hi => ⟨hlt i hi, (hat i hi).2⟩) hn hparts
          refine (keeps_posOf hI _).bind fun pos hpos => ?_
          split
          · exact (keeps_fault hI _ _).skip fun _ => Keeps.pure hskip
          split
          · rename_i e _
            refine Keeps.pure ?_
            rw [places_partReads_concat, hpos]
            refine hparts.append (.singleton (hascii.between ?_ ?_)) ?_ ?_
            all_goals omega
          · exact (keeps_fault hI _ _).skip fun _ => Keeps.pure hskip

theorem keeps_textParts_places (hI : Blind source I) {base : Nat} {value : Bytes}
    (h : value <+: source.drop base) :
    Keeps I (textParts base value) fun parts =>
      Ascending source base (base + value.length) (places (partReads [] parts)) :=
  keeps_partsOf hI (splitText 0 value) (holes_splitText 0 value).1 0 []
    (fun i hi => ⟨Nat.zero_le i, asciiAt_hole h i hi⟩) (Nat.zero_le _) .nil

/-- The arguments that attributes bind stand in their order, and are no blocks. -/
structure AttrsPlaced (source : Bytes) (lo hi : Nat) (args : List Arg) : Prop where
  ascending : Ascending source lo hi (places (attrReads [] args))
  noBlock : ∀ arg ∈ args, Arg.isContent arg = false

theorem AttrsPlaced.mono {args : List Arg} (h : AttrsPlaced source lo hi args) (hhi : hi ≤ hi') :
    AttrsPlaced source lo hi' args :=
  ⟨h.ascending.mono (Nat.le_refl lo) hhi, h.noBlock⟩

theorem AttrsPlaced.concat {args : List Arg} {arg : Arg} (h : AttrsPlaced source lo mid args)
    (harg : Ascending source mid hi (places (attrReads [] [arg]))) (hno : Arg.isContent arg = false)
    (hlo : lo ≤ mid) (hhi : mid ≤ hi) : AttrsPlaced source lo hi (args ++ [arg]) := by
  refine ⟨?_, List.forall_mem_append.2 ⟨h.noBlock, List.forall_mem_singleton.2 hno⟩⟩
  rw [attrReads_append, places_append]
  exact h.ascending.append harg hlo hhi

theorem keeps_attrArgs_places (hI : Blind source I) {attrs : List Attr}
    (h : AttrPath source lo hi attrs) :
    Keeps I (attrArgs attrs) (AttrsPlaced source lo hi) := by
  unfold attrArgs
  -- the attributes read so far end where the next one can start
  suffices hfold : ∀ start args, start ≤ lo → AttrsPlaced source start lo args → Keeps I
      (attrs.foldlM _ args) (AttrsPlaced source start hi) from
    hfold lo [] (Nat.le_refl lo) ⟨.nil, nofun⟩
  induction h with
  | nil hle => exact fun start args _ hargs => Keeps.pure (hargs.mono hle)
  | @cons lo mid hi a attrs hlo hmid hstart hvalue hrest ih =>
      intro start args hle hargs
      rw [List.foldlM_cons]
      refine Keeps.bind (Q := AttrsPlaced source start mid) ?_ fun args hargs =>
        ih start args (by omega) hargs
      have hargs : AttrsPlaced source start a.offset args := hargs.mono hlo
      have hskip : AttrsPlaced source start mid args := hargs.mono (Nat.le_of_lt hmid)
      have hbetween := hstart.between (Nat.le_refl _) hmid
      have hexpr (e : Expression) : AttrsPlaced source start mid
          (args ++ [Arg.expr (Pos.ofOffset source a.offset) a.name e]) :=
        hargs.concat (.singleton hbetween) rfl (by omega) (Nat.le_of_lt hmid)
      refine (keeps_posOf hI _).bind fun pos hpos => ?_
      subst hpos
      split
      · exact Keeps.pure (hexpr .yes)
      · split
        · exact Keeps.pure (hexpr _)
        · exact (keeps_fault hI _ _).skip fun _ => Keeps.pure hskip
      · rename_i base value hquoted
        obtain ⟨hbase, hend, hprefix⟩ := hvalue base value hquoted
        refine (keeps_textParts_places hI hprefix).bind fun parts hparts => Keeps.pure ?_
        refine hargs.concat ?_ rfl (by omega) (Nat.le_of_lt hmid)
        rw [attrReads, attrReads, List.append_nil]
        exact hparts.mono hbase hend

theorem keeps_openElement_places (hI : Blind source I) (pos : Pos) (name : Bytes)
    {attrs : List Attr} (h : AttrPath source lo hi attrs) :
    Keeps I (openElement pos name attrs) fun r =>
      (∀ test otherwise, r.1 = .cond test otherwise → otherwise = none ∧ r.2 = false) ∧
        ∀ args slots, r.1 = .invocation args slots →
          slots = [] ∧ r.2 = false ∧ AttrsPlaced source lo hi args := by
  by_cases hname : name ∈ builtinElements
  · refine (keeps_openElement hI pos name attrs).weaken fun r hr => ?_
    cases hr with
    | cond => exact ⟨by rintro _ _ ⟨⟩; exact ⟨rfl, rfl⟩, nofun⟩
    | invocation hno => exact absurd hname hno
    | _ => exact ⟨nofun, nofun⟩
  · have hopen : openElement pos name attrs = (do
        let _ ← get
        return (.invocation (← attrArgs attrs) [], false)) := by
      simp only [builtinElements, List.mem_cons, List.not_mem_nil, or_false, not_or] at hname
      obtain ⟨hdef, hparam, hslot, hif, helse, hfor⟩ := hname
      rw [openElement_eq]
      refine bind_congr fun st => ?_
      extract_lets frames
      rw [if_neg (by simpa using hdef), if_neg (by simpa using hparam),
        if_neg (by simpa using hslot), if_neg (by simpa using hif),
        if_neg (by simpa using helse), if_neg (by simpa using hfor)]
    rw [hopen]
    refine Keeps.get_bind fun st _ => (keeps_attrArgs_places hI h).bind fun args hargs => ?_
    exact Keeps.pure ⟨nofun, by rintro _ _ ⟨⟩; exact ⟨rfl, rfl, hargs⟩⟩

theorem framePlaced_empty {pos : Pos} {kind : Opened} {allowParams : Bool} (name : Bytes)
    (hpos : Between source a (a + 1) pos) (ha : a < hi)
    (hcond : ∀ test otherwise, kind = .cond test otherwise →
      otherwise = none ∧ allowParams = false)
    (hcall : ∀ args slots, kind = .invocation args slots →
      slots = [] ∧ allowParams = false ∧ AttrsPlaced source (a + 1) hi args) :
    FramePlaced source a hi ⟨kind, name, pos, .empty allowParams⟩ := by
  refine ⟨ha, hpos, .nil, ?_⟩
  cases kind with
  | cond test otherwise =>
      obtain ⟨rfl, rfl⟩ := hcond test otherwise rfl
      rfl
  | invocation args slots =>
      obtain ⟨rfl, rfl, hargs⟩ := hcall args slots rfl
      exact ⟨rfl, hargs.ascending, hargs.noBlock, nofun, nofun, .nil, fun _ _ => nofun⟩
  | _ => trivial

/-! ## Whole sources -/

theorem moves_step {t : Token} {ts : List Token} (h : TokenPath source lo (t :: ts)) :
    ∃ hi, lo ≤ hi ∧ TokenPath source hi ts ∧ Moves source lo hi (step t) := by
  cases h with
  | @text _ offset s _ hrest =>
      refine ⟨lo, Nat.le_refl lo, hrest, ?_⟩
      refine (keeps_posOf WhileClean.blind _).bind_ensures fun pos _ => ?_
      refine (moves_addNode lo lo _).mono (fun st hst => hst.imp fun _ h => ?_) fun _ _ h => h
      exact ⟨h, ⟨.nil, nofun⟩, Nat.le_refl lo⟩
  | @interpolation _ offset s _ hlo hstart hrest =>
      have hle : lo ≤ offset + 1 := Nat.le_succ_of_le hlo
      refine ⟨offset + 1, hle, hrest, ?_⟩
      refine (keeps_posOf WhileClean.blind _).bind_ensures fun pos hpos => ?_
      subst hpos
      split
      · exact ensures_fault _ _
      split
      · exact ensures_fault _ _
      split
      · refine (moves_addNode lo (offset + 1) _).mono (fun st hst => hst.imp fun _ h => ?_)
          fun _ _ h => h
        exact ⟨h, nodePlaced_interpolation (hstart.between hlo (Nat.lt_succ_self _)) _ _, hle⟩
      · exact ensures_fault _ _
  | @closing _ offset name malformed _ hrest =>
      refine ⟨lo, Nat.le_refl lo, hrest, ?_⟩
      exact (keeps_posOf WhileClean.blind _).bind_ensures fun _ _ => Ensures.get_bind fun st hst =>
        moves_closeTag _ _ _ _ st hst
  | @opening _ offset hi name attrs problem selfClosing _ hlo hstart hattrs hrest =>
      have hlt : offset < hi := hattrs.le
      have hle : lo ≤ hi := Nat.le_trans hlo (Nat.le_of_lt hlt)
      refine ⟨hi, hle, hrest, ?_⟩
      refine (keeps_posOf WhileClean.blind _).bind_ensures fun pos hpos => ?_
      subst hpos
      extract_lets afterProblem
      have hafterProblem : ∀ r, Moves source lo hi (afterProblem r) := by
        intro r
        simp only [afterProblem]
        refine (keeps_openElement_places WhileClean.blind _ _ hattrs).bind_ensures
          fun opened hopened => ?_
        obtain ⟨kind, allowParams⟩ := opened
        have hframe : FramePlaced source offset hi
            ⟨kind, name, Pos.ofOffset source offset, .empty allowParams⟩ :=
          framePlaced_empty name (hstart.between (Nat.le_refl _) (Nat.lt_succ_self _)) hlt
            hopened.1 hopened.2
        dsimp only
        split
        · exact (moves_deliver _).mono (fun st hst => hst.imp fun _ h => ⟨h.mono hlo, hframe⟩)
            fun _ _ h => h
        · refine ensures_modify (fun _ => ⟨rfl, rfl, rfl⟩) fun st hst => ?_
          exact ⟨⟨offset, hframe, hst.stack.mono hlo⟩, hst.defs⟩
      split
      · exact (ensures_fault _ _).bind hafterProblem
      · exact (keeps_posOf WhileClean.blind _).bind_ensures fun _ _ =>
          (ensures_fault _ _).bind hafterProblem
      · exact hafterProblem ()

theorem moves_run {ts : List Token} (h : TokenPath source lo ts) :
    Ensures (PlacedUpTo source lo) (run ts) fun _ st => ∃ hi, PlacedUpTo source hi st := by
  induction ts generalizing lo with
  | nil => exact Ensures.pure fun st hst => ⟨lo, hst⟩
  | cons t ts ih =>
      obtain ⟨hi, -, hrest, hstep⟩ := moves_step h
      refine hstep.bind fun _ => Ensures.get_bind fun st hst => ?_
      split
      · exact ih hrest st hst
      · exact ⟨hi, hst⟩

theorem placed_readAll (file source : Bytes) :
    ∃ hi, PlacedUpTo source hi (readAll file source) := by
  have hread : Ensures (PlacedUpTo source 0) (do
      run (lex source)
      closeAll ((← get).frames.length + 1)) fun _ st => ∃ hi, PlacedUpTo source hi st := by
    refine (moves_run (tokenPath_lex source)).bind fun _ => Ensures.get_bind ?_
    rintro st ⟨hi, hst⟩
    exact ⟨hi, moves_closeAll _ st hst⟩
  exact hread _ ⟨rfl, nofun, fun _ => ⟨.nil, nofun⟩⟩

theorem pairwise_places_parse (file path source : Bytes)
    (h : (parse file path source).2 = []) :
    ∀ d ∈ (parse file path source).1.defs,
      (places (bodyReads [] d.body)).Pairwise fun p q => p.before q = true := by
  obtain ⟨hi, hst⟩ := placed_readAll file source
  rw [parse_eq] at h ⊢
  generalize readAll file source = st at h hst
  have hclean := hst.clean (List.reverse_eq_nil_iff.1 h)
  obtain ⟨_, hroot⟩ := hclean.stack.nodes_root
  have hdefs : ∀ d ∈ st.defs.map ({ · with template := path }),
      (places (bodyReads [] d.body)).Pairwise fun p q => p.before q = true :=
    List.forall_mem_map.2 hclean.defs
  dsimp only
  split
  · exact List.forall_mem_cons.2 ⟨(hroot.ascending []).order, hdefs⟩
  · exact hdefs

end TagLoom.Template

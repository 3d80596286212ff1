import TagLoom.Proofs.Template.Offset
import TagLoom.Proofs.Template.Opening

/-!
# Open elements

A token leaves the stack of open elements as it is, opens one, or closes some from the innermost one
on.  A conditional notes how many of its nodes stand before its else branch; its nodes only become
more from then on, since no declaration can come into it and drop them.
-/

namespace TagLoom.Template

open Build

/-- No declaration comes into a conditional, and its else branch stands behind some of its nodes. -/
def Frame.Bounded (f : Frame) : Prop :=
  ∀ test otherwise, f.kind = .cond test otherwise →
    f.body.allowParams = false ∧ f.body.headerOpen = false ∧
      ∀ ns n, otherwise = some (ns, n) → n ≤ f.body.nodes.length

/-- The open elements of a reading, innermost first, have these names. -/
structure Nested (source : Bytes) (names : List Bytes) (st : Builder) : Prop where
  source : st.source = source
  names : st.frames.map (·.name) = names
  bounded : ∀ f ∈ st.frames, f.Bounded

variable {source : Bytes} {names : List Bytes} {st : Builder} {f : Frame} {fs : List Frame}

theorem Nested.blind : Blind source (Nested source names) where
  source := fun _ hst => hst.source
  faults := fun _ _ _ _ hst => ⟨hst.source, hst.names, hst.bounded⟩

theorem Nested.cons (hst : Nested source names st) (hf : f.Bounded) :
    Nested source (f.name :: names) { st with frames := f :: st.frames } :=
  ⟨hst.source, congrArg (f.name :: ·) hst.names, List.forall_mem_cons.2 ⟨hf, hst.bounded⟩⟩

theorem Nested.pop (hst : Nested source names st) (h : st.frames = f :: fs) :
    f.Bounded ∧ Nested source names.tail { st with frames := fs } := by
  have hbounded := hst.bounded
  rw [h] at hbounded
  obtain ⟨hf, hfs⟩ := List.forall_mem_cons.1 hbounded
  refine ⟨hf, hst.source, ?_, hfs⟩
  rw [← hst.names, h]
  rfl

theorem Nested.replace (hst : Nested source names st) (h : st.frames = f :: fs) {f' : Frame}
    (hname : f'.name = f.name) (hf' : f'.Bounded) :
    Nested source names { st with frames := f' :: fs } := by
  have hrest := (hst.pop h).2
  refine ⟨hst.source, ?_, List.forall_mem_cons.2 ⟨hf', hrest.bounded⟩⟩
  rw [← hst.names, h, List.map_cons, List.map_cons, hname]

/-! ## Bodies -/

theorem Frame.Bounded.add (hf : f.Bounded) (n : Node) :
    Frame.Bounded { f with body := f.body.add n } := by
  intro test otherwise hkind
  obtain ⟨hallow, hheader, hbranch⟩ := hf test otherwise hkind
  have hadd : f.body.add n = { f.body with nodes := f.body.nodes ++ [n] } := by
    rw [Body.add, hheader, if_neg Bool.false_ne_true, ← hheader]
  rw [hadd]
  refine ⟨hallow, hheader, fun ns i hi => ?_⟩
  have hle := hbranch ns i hi
  simp only [List.length_append, List.length_singleton]
  omega

theorem Frame.Bounded.addDecl (hf : f.Bounded) {d : Declaration} {b : Body}
    (h : f.body.addDecl d = .ok b) : Frame.Bounded { f with body := b } := by
  intro test otherwise hkind
  obtain ⟨hallow, -⟩ := hf test otherwise hkind
  rw [Body.addDecl, hallow] at h
  cases h

theorem nested_addNode (n : Node) :
    Keeps (Nested source names) (addNode n) fun _ => True := by
  refine Keeps.modify fun st hst => ?_
  split
  · exact ⟨hst.source, hst.names, hst.bounded⟩
  · rename_i frame frames hframes
    have hf := (hst.pop hframes).1
    exact hst.replace hframes rfl (hf.add n)

theorem nested_addDecl (d : Declaration) :
    Keeps (Nested source names) (addDecl d) fun _ => True := by
  intro st hst
  obtain ⟨e, -, hrun⟩ | ⟨b, hadd, hrun⟩ := addDecl_cases d st
  · rw [hrun]
    exact keeps_fault Nested.blind d.pos e st hst
  · rw [hrun]
    obtain ⟨-, hrun⟩ | ⟨frame, frames, hframes, hrun⟩ := modifyBody_cases (fun _ => b) st
    · rw [hrun]
      exact ⟨⟨hst.source, hst.names, hst.bounded⟩, trivial⟩
    · rw [hrun]
      rw [hframes] at hadd
      have hf := (hst.pop hframes).1
      exact ⟨hst.replace hframes rfl (hf.addDecl hadd), trivial⟩

/-! ## Closing elements -/

theorem nested_checkAfterElse (nodes : List Node) :
    Keeps (Nested source names) (checkAfterElse nodes) fun _ => True := by
  unfold checkAfterElse
  split
  · exact keeps_fault Nested.blind _ _
  · exact Keeps.pure trivial

theorem nested_deliver (frame : Frame) :
    Keeps (Nested source names) (deliver frame) fun _ => True := by
  unfold deliver
  extract_lets nodes
  cases frame.kind with
  | definition name =>
      cases name with
      | none => exact Keeps.pure trivial
      | some name => exact Keeps.modify fun st hst => ⟨hst.source, hst.names, hst.bounded⟩
  | param decl =>
      exact ensures_deliver_param frame.name (keeps_fault Nested.blind _ _) (Keeps.pure trivial)
        fun d _ => nested_addDecl d
  | slot name =>
      cases name with
      | none => exact Keeps.pure trivial
      | some name =>
          refine Keeps.modify fun st hst => ?_
          split
          · rename_i f frames hframes
            split
            · refine hst.replace hframes rfl fun _ _ hkind => ?_
              cases hkind
            · exact hst
          · exact hst
  | cond test otherwise =>
      exact ensures_deliver_cond frame.name (fun _ => nested_checkAfterElse _) (Keeps.pure trivial)
        fun _ _ => nested_addNode _
  | otherwise =>
      refine Keeps.get_bind fun st hst => ?_
      split
      · rename_i f frames hframes
        split
        · rename_i test hkind
          refine Keeps.set (hst.replace hframes rfl fun test' otherwise' hkind' => ?_)
          obtain ⟨hallow, hheader, -⟩ := (hst.pop hframes).1 test none hkind
          cases hkind'
          refine ⟨hallow, hheader, fun ns n hbranch => ?_⟩
          cases hbranch
          exact Nat.le_refl _
        · exact keeps_fault Nested.blind _ _
        · exact keeps_fault Nested.blind _ _
      · exact keeps_fault Nested.blind _ _
  | loop head =>
      cases head with
      | none => exact Keeps.pure trivial
      | some head => exact nested_addNode _
  | invocation args slots => exact nested_addNode _

theorem nested_closeTop (hst : Nested source names st) :
    Nested source names.tail (closeTop.run st).2 := by
  cases hframes : st.frames with
  | nil =>
      have hnames := hst.names
      rw [hframes] at hnames
      subst hnames
      rw [run_closeTop_nil hframes]
      exact hst
  | cons frame frames =>
      rw [run_closeTop hframes]
      exact (nested_deliver frame _ (hst.pop hframes).2).1

/-- What a closed element hands over, the nodes behind an else branch looked up. -/
def deliver? (frame : Frame) (st : Builder) : Option Builder :=
  match frame.kind with
  | .cond test (some (other, n)) => do
      let after ← suffix? frame.body.nodes n
      let close : Build Unit := do
        checkAfterElse after
        match test with
        | some e => addNode (.cond frame.pos e frame.body.nodes (some other))
        | none => pure ()
      some (close.run st).2
  | _ => some ((deliver frame).run st).2

theorem deliver?_eq (hf : f.Bounded) (st : Builder) :
    deliver? f st = some ((deliver f).run st).2 := by
  unfold deliver? deliver
  split
  · rename_i test other n hkind
    obtain ⟨-, -, hbranch⟩ := hf test _ hkind
    have hle := hbranch other n rfl
    have hafter : suffix? f.body.nodes n = some (f.body.nodes.drop n) := by
      rw [suffix?, slice?, if_pos ⟨hle, Nat.le_refl _⟩, List.take_of_length_le (by simp)]
    rw [hafter, hkind]
    rfl
  · rfl

/-- Closes the innermost element, the nodes behind an else branch looked up. -/
def closeTop? (st : Builder) : Option Builder :=
  match st.frames with
  | [] => some st
  | frame :: frames => deliver? frame { st with frames := frames }

theorem closeTop?_eq (hst : Nested source names st) :
    closeTop? st = some (closeTop.run st).2 := by
  unfold closeTop?
  cases hframes : st.frames with
  | nil => rw [run_closeTop_nil hframes]
  | cons frame frames =>
      rw [run_closeTop hframes]
      exact deliver?_eq (hst.pop hframes).1 _

/-- Closes all open elements at the end of the source, in at most some number of rounds. -/
def closeAll? : Nat → Builder → Option Builder
  | 0, st => some st
  | rounds + 1, st =>
      match st.frames with
      | [] => some st
      | frame :: _ =>
          closeTop? ((fault frame.pos (.unclosed frame.name)).run st).2 >>= closeAll? rounds

theorem closeAll?_eq (hst : Nested source names st) (rounds : Nat) :
    closeAll? rounds st = some ((closeAll rounds).run st).2 := by
  induction rounds generalizing names st with
  | zero => rfl
  | succ rounds ih =>
      rw [closeAll?]
      cases hframes : st.frames with
      | nil => rw [closeAll_of_nil hframes]
      | cons frame _ =>
          have hfault := (keeps_fault Nested.blind frame.pos (.unclosed frame.name) st hst).1
          dsimp only
          rw [closeAll_of_cons hframes, closeTop?_eq hfault]
          exact ih (nested_closeTop hfault)

/-! ## Tokens -/

theorem nested_text (offset : Nat) (s : Bytes) :
    Keeps (Nested source names) (step (.text offset s)) fun _ => True :=
  (keeps_posOf Nested.blind _).bind fun _ _ => nested_addNode _

theorem nested_interpolation (offset : Nat) (s : Option Bytes) :
    Keeps (Nested source names) (step (.interpolation offset s)) fun _ => True := by
  refine (keeps_posOf Nested.blind _).bind fun pos _ => ?_
  split
  · exact keeps_fault Nested.blind _ _
  split
  · exact keeps_fault Nested.blind _ _
  split
  · exact nested_addNode _
  · exact keeps_fault Nested.blind _ _

theorem OpenedBy.bounded {pos : Pos} {name : Bytes} {attrs : List Attr} {kind : Opened}
    {allowParams : Bool} (h : OpenedBy source pos name attrs (kind, allowParams)) :
    Frame.Bounded ⟨kind, name, pos, .empty allowParams⟩ := by
  intro test otherwise hkind
  cases h with
  | cond hname htest =>
      cases hkind
      exact ⟨rfl, rfl, nofun⟩
  | _ => cases hkind

theorem nested_opening (offset : Nat) (name : Bytes) (attrs : List Attr)
    (problem : Option (Nat × TagProblem)) (selfClosing : Bool) :
    Ensures (Nested source names) (step (.opening offset name attrs problem selfClosing)) fun _ st =>
      Nested source (if selfClosing then names else name :: names) st := by
  refine (keeps_posOf Nested.blind offset).bind_ensures fun pos _ => ?_
  extract_lets afterProblem
  have hafter : ∀ r, Ensures (Nested source names) (afterProblem r) fun _ st =>
      Nested source (if selfClosing then names else name :: names) st := by
    intro r
    refine (keeps_openElement Nested.blind pos name attrs).bind_ensures fun opened hopened => ?_
    obtain ⟨kind, allowParams⟩ := opened
    intro st hst
    cases selfClosing with
    | true => exact (nested_deliver _ st hst).1
    | false => exact hst.cons hopened.bounded
  split
  · exact (keeps_fault Nested.blind _ _).bind_ensures fun r _ => hafter r
  · exact (keeps_posOf Nested.blind _).bind_ensures fun _ _ =>
      (keeps_fault Nested.blind _ _).bind_ensures fun r _ => hafter r
  · exact hafter ()

end TagLoom.Template

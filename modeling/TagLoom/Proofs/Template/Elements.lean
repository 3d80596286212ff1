import TagLoom.Proofs.Template.Mirror

/-!
# Elements inside a definition

Opening and closing an element inside a definition mirrors doing so in a source read alone: what a
closed element hands over lands in the body of the definition, where it lands in the root otherwise.
-/

namespace TagLoom.Template

open Build

variable {α β : Type} {tag source file : Bytes}

/-! ## Closing elements -/

theorem looks_checkAfterElse (nodes : List Node) :
    Looks tag source file (checkAfterElse nodes)
      (checkAfterElse (nodes.map (Node.relocate (place tag)))) (fun a => a) fun _ => True := by
  unfold checkAfterElse
  have hfind : (nodes.map (Node.relocate (place tag))).find? (!·.isBlankLiteral) =
      (nodes.find? (!·.isBlankLiteral)).map (Node.relocate (place tag)) := by
    rw [List.find?_map]
    congr 2
    exact funext fun n => congrArg not n.isBlankLiteral_relocate
  rw [hfind]
  cases nodes.find? (!·.isBlankLiteral) with
  | none => exact Looks.same trivial
  | some n => exact Mirrors.fault _ _

/-- What handing over a closed element does. -/
abbrev Delivers (frame : Frame) (st : Builder) (_ : Unit) (st' : Builder) : Prop :=
  (Landed st.frames → Landed st'.frames) ∧ ((st.frames = [] → frame.kind.Lands) → Begun st')

theorem delivers_self {frame : Frame} (h : ¬ frame.kind.Lands) (st : Builder) :
    Delivers frame st () st :=
  ⟨id, fun hlands => .inl fun hnil => h (hlands hnil)⟩

theorem mirrors_deliverNode {frame : Frame} (n : Node) (hn : n.isBlankLiteral = false)
    (hline : HasLine n) : Mirrors tag source file (addNode n) (addNode (n.relocate (place tag)))
      (fun a => a) (Delivers frame) :=
  (mirrors_addNode hline).mono fun _ _ _ h => ⟨h.1, fun _ => h.2 (.inl hn)⟩

theorem inside_frames {st : Builder} {f : Frame} {fs : List Frame} (h : st.frames = f :: fs) :
    (st.inside tag).frames = f.relocate (place tag) :: (fs.map (·.relocate (place tag)) ++
      [⟨.definition (some tag), "t:def", .start, st.root.relocate (place tag)⟩]) := by
  rw [Builder.inside, h]
  rfl

theorem mirrors_addSlot (pos : Pos) (name : Bytes) (nodes : List Node) :
    Mirrors tag source file (modify (addSlot pos name nodes))
      (modify (addSlot (place tag pos) name (nodes.map (·.relocate (place tag))))) (fun a => a)
      fun st _ st' => (Landed st.frames → Landed st'.frames) ∧ (st.frames ≠ [] → Begun st') := by
  refine Mirrors.modify (fun st => ?_) fun st => ?_
  · unfold addSlot
    repeat' split
    all_goals exact ⟨rfl, rfl, rfl, rfl⟩
  · by_cases hkind : ∃ f fs args slots, st.frames = f :: fs ∧ f.kind = .invocation args slots
    · obtain ⟨f, fs, args, slots, hframes, hkind⟩ := hkind
      have hadd : addSlot pos name nodes st = { st with frames := { f with
          kind := .invocation args (slots ++ [.content pos name nodes]) } :: fs } := by
        simp only [addSlot, hframes, hkind]
      rw [hadd, hframes]
      refine ⟨⟨fun hlanded => hlanded.replace fun _ => trivial,
        fun _ => .inl (List.cons_ne_nil _ _)⟩, ?_⟩
      rw [addSlot, inside_frames hframes]
      simp [Frame.relocate, hkind, Opened.relocate, Builder.inside, Arg.relocate]
    · have hself : addSlot pos name nodes st = st := by
        unfold addSlot
        split
        · rename_i f fs hframes
          split
          · rename_i args slots hinvocation
            exact absurd ⟨f, fs, args, slots, hframes, hinvocation⟩ hkind
          · rfl
        · rfl
      have hself' : addSlot (place tag pos) name (nodes.map (·.relocate (place tag)))
          (st.inside tag) = st.inside tag := by
        cases hframes : st.frames with
        | nil => simp [addSlot, Builder.inside, hframes]
        | cons f fs =>
            rw [addSlot, inside_frames hframes]
            cases hk : f.kind with
            | invocation args slots => exact absurd ⟨f, fs, args, slots, hframes, hk⟩ hkind
            | _ => simp [Frame.relocate, hk, Opened.relocate]
      rw [hself, hself']
      exact ⟨⟨id, fun hframes => .inl hframes⟩, rfl⟩

/-- A closed element is handed over alike. -/
abbrev HandsOver (tag source file : Bytes) (frame : Frame) : Prop :=
  Mirrors tag source file (deliver frame) (deliver (frame.relocate (place tag))) (fun a => a)
    (Delivers frame)

private theorem mirrors_deliverDecl (decl : Option Declaration) (name : Bytes) (pos : Pos)
    (body : Body) : Mirrors tag source file
      (match decl with
        | some e => Build.addDecl e
        | none => pure ())
      (match decl.map (·.relocate (place tag)) with
        | some e => Build.addDecl e
        | none => pure ())
      (fun a => a) (Delivers ⟨.param decl, name, pos, body⟩) := by
  cases decl with
  | none => exact Mirrors.pure (g := fun a => a) (delivers_self id)
  | some e => exact (mirrors_addDecl e).mono fun _ _ _ h => ⟨h.1, fun _ => h.2⟩

theorem handsOver_param (decl : Option Declaration) (name : Bytes) (pos : Pos) (body : Body) :
    HandsOver tag source file ⟨.param decl, name, pos, body⟩ := by
  have hdeliver : Mirrors tag source file _ _ _ _ := mirrors_deliverDecl decl name pos body
  unfold HandsOver deliver
  dsimp only [Frame.relocate, Opened.relocate, Body.relocate]
  rw [Node.allBlank_relocate]
  split
  · exact Mirrors.fault_bind _ _ hdeliver.grows
  · exact hdeliver

private theorem mirrors_deliverCond (test : Option Expression)
    (branch : Option (List Node × Nat)) (name : Bytes) (pos : Pos) (body : Body) :
    Mirrors tag source file
      (match test with
        | some e => addNode (.cond pos e body.nodes (branch.map (·.1)))
        | none => pure ())
      (match test with
        | some e => addNode (.cond (place tag pos) e (body.nodes.map (·.relocate (place tag)))
            ((branch.map fun b => (b.1.map (·.relocate (place tag)), b.2)).map (·.1)))
        | none => pure ())
      (fun a => a) (Delivers ⟨.cond test branch, name, pos, body⟩) := by
  cases test with
  | none => exact Mirrors.pure (g := fun a => a) (delivers_self id)
  | some e =>
      have hcond : Mirrors tag source file _ _ _ (Delivers ⟨.cond (some e) branch, name, pos, body⟩) :=
        mirrors_deliverNode (.cond pos e body.nodes (branch.map (·.1))) rfl
          (by rintro _ _ ⟨⟩)
      rw [Node.relocate_cond, Option.map_map] at hcond
      rwa [Option.map_map]

theorem handsOver_cond (test : Option Expression) (branch : Option (List Node × Nat)) (name : Bytes)
    (pos : Pos) (body : Body) : HandsOver tag source file ⟨.cond test branch, name, pos, body⟩ := by
  have hdeliver : Mirrors tag source file _ _ _ _ := mirrors_deliverCond test branch name pos body
  unfold HandsOver deliver
  cases branch with
  | none => exact hdeliver
  | some b =>
      obtain ⟨ns, n⟩ := b
      dsimp only [Frame.relocate, Opened.relocate, Body.relocate, Option.map_some]
      rw [← List.map_drop]
      exact Looks.bind_mirrors (looks_checkAfterElse _) fun _ =>
        hdeliver.mono fun _ _ _ h _ => h

/-- The first other branch of a condition becomes part of it; without a condition it is a fault. -/
theorem handsOver_otherwise (name : Bytes) (pos : Pos) (body : Body) :
    HandsOver tag source file ⟨.otherwise, name, pos, body⟩ := by
  refine Mirrors.get_bind fun st hst => ?_
  cases hframes : st.frames with
  | nil => exact Mirrors.fault _ _ st hst
  | cons f fs =>
      cases hkind : f.kind with
      | cond test branch =>
          cases branch with
          | some b =>
              dsimp only
              rw [hkind]
              exact Mirrors.fault _ _ st hst
          | none =>
              dsimp only
              rw [hkind, inside_frames hframes]
              dsimp only [Frame.relocate]
              rw [hkind]
              have hlands (h : f.kind.Lands) (branch : List Node × Nat) :
                  (Opened.cond test (some branch)).Lands := by
                rw [hkind] at h
                cases test with
                | none => exact h
                | some e => trivial
              refine ⟨⟨hst.source, hst.file, hst.aborted⟩, fun hclean => ⟨hclean, ⟨?_, ?_⟩, ?_⟩⟩
              · intro hlanded
                rw [hframes] at hlanded
                exact hlanded.replace fun h => hlands h _
              · exact fun _ => .inl (List.cons_ne_nil _ _)
              · refine congrArg (Prod.mk PUnit.unit) ?_
                change _ = Builder.inside tag { st with frames := { f with
                  kind := .cond test (some (body.nodes, f.body.nodes.length)) } :: fs }
                simp [Builder.inside, Frame.relocate, Opened.relocate, Body.relocate]
      | _ =>
          dsimp only
          rw [hkind]
          exact Mirrors.fault _ _ st hst

theorem handsOver (frame : Frame) : HandsOver tag source file frame := by
  obtain ⟨kind, name, pos, body⟩ := frame
  cases kind with
  | definition n =>
      cases n with
      | none => exact Mirrors.pure (g := fun a => a) (delivers_self id)
      | some n =>
          refine Mirrors.modify (fun st => ⟨rfl, rfl, rfl, rfl⟩) fun st =>
            ⟨⟨id, fun hlands => .inl hlands⟩, ?_⟩
          simp [Builder.inside, Frame.relocate, Definition.relocate, Body.relocate]
  | param decl => exact handsOver_param decl name pos body
  | slot n =>
      cases n with
      | none => exact Mirrors.pure (g := fun a => a) (delivers_self id)
      | some n =>
          exact (mirrors_addSlot pos n body.nodes).mono fun _ _ _ h =>
            ⟨h.1, fun hlands => h.2 fun hnil => hlands hnil⟩
  | cond test branch => exact handsOver_cond test branch name pos body
  | otherwise => exact handsOver_otherwise name pos body
  | loop head =>
      cases head with
      | none => exact Mirrors.pure (g := fun a => a) (delivers_self id)
      | some head =>
          obtain ⟨each, item, index⟩ := head
          have hloop : Mirrors tag source file _ _ _
              (Delivers ⟨.loop (some (each, item, index)), name, pos, body⟩) :=
            mirrors_deliverNode (.loop pos each item index body.nodes) rfl (by rintro _ _ ⟨⟩)
          rw [Node.relocate, Node.relocateAll_eq] at hloop
          exact hloop
  | invocation args slots =>
      have hinvocation : Mirrors tag source file _ _ _
          (Delivers ⟨.invocation args slots, name, pos, body⟩) :=
        mirrors_deliverNode (.invocation pos name (args ++ contentArgs slots body.nodes)) rfl
          (by rintro _ _ ⟨⟩)
      rw [Node.relocate, Arg.relocateAll_eq, List.map_append, ← contentArgs_indent] at hinvocation
      exact hinvocation

theorem steady_pop {st : Builder} (hst : Steady source file st) (fs : List Frame) :
    Steady source file { st with frames := fs } :=
  ⟨hst.source, hst.file, hst.aborted⟩

theorem mirrorsAt_closeTop {st : Builder} (hst : Steady source file st) {f : Frame}
    {fs : List Frame} (h : st.frames = f :: fs) :
    MirrorsAt tag source file st closeTop closeTop (fun a => a) fun _ _ st' =>
      Landed st.frames → Landed st'.frames ∧ Begun st' := by
  have hrun' : closeTop.run (st.inside tag) =
      (deliver (f.relocate (place tag))).run (Builder.inside tag { st with frames := fs }) :=
    run_closeTop (inside_frames h)
  have hover : HandsOver tag source file f := handsOver f
  obtain ⟨hsteady, hclean⟩ := hover _ (steady_pop hst fs)
  rw [← run_closeTop h] at hsteady hclean
  refine ⟨hsteady, fun hfaults => ?_⟩
  obtain ⟨hbefore, hdelivers, hsame⟩ := hclean hfaults
  refine ⟨hbefore, fun hlanded => ?_, hrun'.trans hsame⟩
  rw [h] at hlanded
  exact ⟨hdelivers.1 hlanded.tail.1, hdelivers.2 hlanded.tail.2⟩

theorem grows_closeTop : Grows source file closeTop := by
  intro st hst
  cases h : st.frames with
  | nil =>
      rw [run_closeTop_nil h]
      exact ⟨hst, id⟩
  | cons f fs =>
      have hclose : MirrorsAt [] source file st _ _ _ _ := mirrorsAt_closeTop hst h
      exact ⟨hclose.steady, fun hclean => (hclose.clean hclean).1⟩

theorem grows_closeNext {pos : Pos} {name : Bytes} {malformed : Bool} {fuel : Nat}
    (h : Grows source file (closeTag pos name malformed fuel)) :
    Grows source file (do closeTop; if !(← get).aborted then closeTag pos name malformed fuel) := by
  refine grows_closeTop.bind fun _ => Grows.get_bind fun st hst => ?_
  split
  · exact h st hst
  · exact ⟨hst, id⟩

theorem grows_closeFrames {pos : Pos} {name : Bytes} {malformed : Bool} {fuel : Nat}
    (h : Grows source file (closeTag pos name malformed fuel)) :
    Grows source file (closeFrames pos name malformed fuel) := by
  refine Grows.get_bind fun st hst => ?_
  split
  · exact grows_fault _ _ st hst
  split
  · exact grows_closeTop st hst
  split
  · exact (grows_fault _ _).bind (fun _ => grows_closeNext h) st hst
  · exact grows_fault _ _ st hst

theorem grows_closeTag (pos : Pos) (name : Bytes) (malformed : Bool) (fuel : Nat) :
    Grows source file (closeTag pos name malformed fuel) := by
  induction fuel with
  | zero => exact Grows.pure ()
  | succ fuel ih =>
      rw [closeTag_succ]
      split
      · exact (grows_fault _ _).bind fun _ => grows_closeFrames ih
      · exact grows_closeFrames ih

theorem grows_closeAll (fuel : Nat) : Grows source file (closeAll fuel) := by
  induction fuel with
  | zero => exact Grows.pure ()
  | succ fuel ih =>
      refine Grows.get_bind fun st hst => ?_
      split
      · exact ⟨hst, id⟩
      · exact (grows_fault _ _).bind (fun _ => grows_closeTop.bind fun _ => ih) st hst

theorem mirrors_closeTag (pos pos' : Pos) (name : Bytes) (malformed : Bool) (fuel fuel' : Nat) :
    Mirrors tag source file (closeTag pos name malformed (fuel + 1))
      (closeTag pos' name malformed (fuel' + 1)) (fun a => a) fun st _ st' =>
        malformed = false ∧ (Landed st.frames → Landed st'.frames ∧ Begun st') := by
  rw [closeTag_succ, closeTag_succ]
  cases malformed with
  | true => exact Mirrors.fault_bind _ _ (grows_closeFrames (grows_closeTag pos name true fuel))
  | false =>
      refine Mirrors.get_bind fun st hst => ?_
      cases hframes : st.frames with
      | nil => exact Mirrors.fault _ _ st hst
      | cons f fs =>
          rw [inside_frames hframes]
          dsimp only
          split
          · rename_i hname
            have hname' : ((f.relocate (place tag)).name == name) = true := hname
            rw [if_pos hname']
            exact (mirrorsAt_closeTop hst hframes).mono fun _ _ h => ⟨rfl, h⟩
          · split
            · exact Mirrors.fault_bind _ _ (grows_closeNext (grows_closeTag pos name false fuel))
                st hst
            · exact Mirrors.fault _ _ st hst

/-! ## Opening elements -/

abbrev openedInside (tag : Bytes) (r : Opened × Bool) : Opened × Bool :=
  (r.1.relocate (place tag), r.2)

theorem Looks.opened {kind : Opened} {allowParams : Bool} {φ : Opened × Bool → Prop}
    (h : φ (kind, allowParams)) :
    Looks tag source file (Pure.pure (kind, allowParams))
      (Pure.pure (kind.relocate (place tag), allowParams)) (openedInside tag) φ :=
  Looks.pure (g := openedInside tag) h

theorem looks_paramType (attrs : List Attr) (d : Nat) :
    Looks tag source file (paramType attrs) (paramType (attrs.map (Attr.shift d))) (fun a => a)
      (· ≠ none) := by
  unfold paramType
  rw [findAttr_shift]
  cases findAttr attrs "type" with
  | none => exact Looks.same nofun
  | some a =>
      obtain ⟨offset, name, value⟩ := a
      cases value with
      | bare => exact Mirrors.faultAt_pure _ _
      | quoted base v | braced v =>
          dsimp only [Option.map_some, Attr.shift, AttrValue.shift]
          split
          · exact Looks.same nofun
          · exact Mirrors.faultAt_pure _ _

theorem looks_paramDefault (name : Bytes) (pos pos' : Pos) (attrs : List Attr) (d : Nat) :
    Looks tag source file (paramDefault name pos attrs)
      (paramDefault name pos' (attrs.map (Attr.shift d))) (fun a => a) (· ≠ none) := by
  unfold paramDefault
  rw [findAttr_shift]
  cases hfind : findAttr attrs "default" with
  | none => exact Looks.same nofun
  | some a =>
      refine Looks.bind (looks_exprAttr _ _ _ _ _ _ _) fun e => ?_
      cases e with
      | some e => exact Looks.same fun _ => nofun
      | none => exact Looks.same fun hread => absurd rfl (hread (.inr (by rw [hfind]; nofun)))

theorem looks_openParam (pos : Pos) (name : Bytes) (attrs : List Attr) (d : Nat) :
    Looks tag source file (openParam pos name attrs)
      (openParam (place tag pos) name (attrs.map (Attr.shift d))) (openedInside tag) (·.1.Lands) := by
  refine Looks.bind (looks_knownAttrs _ _ _ _) fun attrs => ?_
  refine Looks.bind (looks_nameAttr _ _ _ _ _ _ _ _) fun param => ?_
  refine Looks.bind (looks_paramType _ _) fun type => ?_
  refine Looks.bind (looks_paramDefault _ _ _ _ _) fun default => ?_
  split
  · exact Looks.opened fun _ _ _ _ => trivial
  · rename_i hno
    refine Looks.opened fun hdefault htype hparam _ => ?_
    obtain ⟨n, rfl, hn, -⟩ := hparam
    obtain ⟨n, rfl⟩ := Option.ne_none_iff_exists'.1 (hn rfl)
    obtain ⟨t, rfl⟩ := Option.ne_none_iff_exists'.1 htype
    obtain ⟨e, rfl⟩ := Option.ne_none_iff_exists'.1 hdefault
    exact absurd rfl (hno n t e rfl rfl)

theorem looks_openSlot (st : Builder) (pos : Pos) (name : Bytes) (attrs : List Attr) (d : Nat) :
    Looks tag source file (openSlot st.frames pos name attrs)
      (openSlot (st.inside tag).frames (place tag pos) name (attrs.map (Attr.shift d)))
      (openedInside tag) fun _ => st.frames ≠ [] := by
  refine Looks.bind (looks_knownAttrs _ _ _ _) fun attrs => ?_
  refine Looks.bind (looks_nameAttr _ _ _ _ _ _ _ _) fun slot => ?_
  cases hframes : st.frames with
  | nil => exact Mirrors.fault_pure _ _
  | cons f fs =>
      rw [inside_frames hframes]
      cases hkind : f.kind with
      | invocation args slots =>
          simp only [List.head?_cons, Option.map_some, hkind, Frame.relocate, Opened.relocate]
          exact Looks.opened fun _ _ => List.cons_ne_nil _ _
      | _ =>
          simp only [List.head?_cons, Option.map_some, hkind]
          exact Mirrors.fault_pure _ _

theorem looks_openLoop (pos : Pos) (name : Bytes) (attrs : List Attr) (d : Nat) :
    Looks tag source file (openLoop pos name attrs)
      (openLoop (place tag pos) name (attrs.map (Attr.shift d))) (openedInside tag) (·.1.Lands) := by
  refine Looks.bind (looks_knownAttrs _ _ _ _) fun attrs => ?_
  refine Looks.bind (looks_exprAttr _ _ _ _ _ _ _) fun each => ?_
  refine Looks.bind (looks_nameAttr _ _ _ _ _ _ _ _) fun item => ?_
  refine Looks.bind (looks_nameAttr _ _ _ _ _ _ _ _) fun index => ?_
  split
  · rename_i i k
    split
    · rename_i hsame
      rw [findAttr_shift]
      cases hindex : findAttr attrs "index" with
      | some a => exact Mirrors.faultAt_pure _ _
      | none =>
          refine Looks.opened fun hk _ _ _ => ?_
          obtain ⟨n, hn, -, hnone⟩ := hk
          cases hn
          rw [hnone rfl] at hsame
          cases hsame
    · refine Looks.opened fun _ _ heach _ => ?_
      obtain ⟨e, rfl⟩ := Option.ne_none_iff_exists'.1 (heach (.inl rfl))
      trivial
  · rename_i hno
    refine Looks.opened fun hindex hitem _ _ => ?_
    obtain ⟨k, rfl, -⟩ := hindex
    obtain ⟨i, rfl, hne, -⟩ := hitem
    obtain ⟨i, rfl⟩ := Option.ne_none_iff_exists'.1 (hne rfl)
    exact absurd rfl (hno i k rfl)

theorem looks_openElement (htag : Name.isTag tag = true) (pos : Pos) {name : Bytes}
    (hname : name ≠ Bytes.ofString "t:def") {attrs : List Attr}
    (h : ∀ a ∈ attrs, a.Within source.length) :
    Mirrors tag source file (openElement pos name attrs)
      (openElement (place tag pos) name (attrs.map (Attr.shift (defStart tag).length)))
      (openedInside tag) fun st r st' => st' = st ∧ (st.frames = [] → r.1.Lands) := by
  rw [openElement_eq, openElement_eq]
  refine Mirrors.get_bind fun st hst => ?_
  refine MirrorsAt.mono (Q := fun st' (r : Opened × Bool) st'' =>
    st'' = st' ∧ (st.frames = [] → r.1.Lands)) ?_ fun _ _ h => h
  refine (?_ : Looks tag source file _ _ _ fun r : Opened × Bool =>
    st.frames = [] → r.1.Lands) st hst
  have hdef : ¬ (name == Bytes.ofString "t:def") = true := fun heq => hname (eq_of_beq heq)
  rw [if_neg hdef, if_neg hdef]
  split
  · exact (looks_openParam _ _ _ _).mono fun _ _ _ h => ⟨h.1, fun _ => h.2⟩
  split
  · exact (looks_openSlot _ _ _ _ _).mono fun _ _ _ h => ⟨h.1, fun hnil => absurd hnil h.2⟩
  split
  · refine Looks.bind (looks_knownAttrs _ _ _ _) fun attrs => ?_
    refine Looks.bind (looks_exprAttr _ _ _ _ _ _ _) fun test => ?_
    refine Looks.opened fun htest _ _ => ?_
    obtain ⟨e, rfl⟩ := Option.ne_none_iff_exists'.1 (htest (.inl rfl))
    trivial
  split
  · refine Looks.bind (looks_knownAttrs _ _ _ _) fun attrs => ?_
    exact Looks.opened fun _ _ => trivial
  split
  · exact (looks_openLoop _ _ _ _).mono fun _ _ _ h => ⟨h.1, fun _ => h.2⟩
  · refine Looks.bind (looks_attrArgs htag h) fun args => ?_
    exact Looks.opened fun _ _ => trivial

end TagLoom.Template

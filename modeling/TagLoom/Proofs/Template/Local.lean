import TagLoom.Proofs.Template.Elements
import TagLoom.Proofs.Template.Tree

/-!
# Bodies are local

Inside a definition a source means what it means alone: the reading of all its tokens inside mirrors
the reading of them alone.
-/

namespace TagLoom.Template

open Build

variable {tag source file : Bytes}

/-! ## Whole sources -/

/-- What taking in a token without a fault does. -/
abbrev Advances (t : Token) (st : Builder) (_ : Unit) (st' : Builder) : Prop :=
  t.Clean ∧ (Landed st.frames → Landed st'.frames ∧ (t.isBlank = false ∨ Begun st → Begun st'))

theorem mirrors_step (htag : Name.isTag tag = true) {t : Token} (ht : t.Within source.length)
    (hdef : ∀ offset attrs problem selfClosing,
      t ≠ .opening offset "t:def" attrs problem selfClosing) :
    Mirrors tag source file (step t) (step (t.shift (defStart tag).length)) (fun a => a)
      (Advances t) := by
  cases t with
  | text offset s =>
      refine Mirrors.posOf_bind htag ht ?_
      have hline : HasLine (.literal (Pos.ofOffset source offset) s) := by
        rintro _ _ ⟨⟩
        exact Pos.one_le_line_ofOffset source offset
      exact (mirrors_addNode hline).mono fun _ _ _ h => ⟨trivial, fun hlanded => ⟨h.1 hlanded, h.2⟩⟩
  | interpolation offset s =>
      refine Mirrors.posOf_bind htag ht ?_
      cases s with
      | none => exact Mirrors.fault _ _
      | some s =>
          dsimp only
          split
          · exact Mirrors.fault _ _
          split
          · rename_i e he
            have hline : HasLine (.interpolation (Pos.ofOffset source offset) e none) := nofun
            exact (mirrors_addNode hline).mono fun _ _ _ h =>
              ⟨nofun, fun hlanded => ⟨h.1 hlanded, fun _ => h.2 (.inl rfl)⟩⟩
          · exact Mirrors.fault _ _
  | closing offset name malformed =>
      refine Mirrors.posOf_bind htag ht (Mirrors.get_bind fun st hst => ?_)
      exact (mirrors_closeTag _ _ name malformed _ _ st hst).mono fun _ _ h =>
        ⟨h.1, fun hlanded => ⟨(h.2 hlanded).1, fun _ => (h.2 hlanded).2⟩⟩
  | opening offset name attrs problem selfClosing =>
      refine Mirrors.posOf_bind htag ht.1 ?_
      extract_lets afterProblem afterProblem'
      have hafterProblem (r : PUnit) : Mirrors tag source file (afterProblem r) (afterProblem' r)
          (fun a => a) fun st _ st' => Landed st.frames → Landed st'.frames ∧ Begun st' := by
        have hname : name ≠ Bytes.ofString "t:def" := by
          rintro rfl
          exact hdef offset attrs problem selfClosing rfl
        simp only [afterProblem, afterProblem']
        refine (looks_openElement htag _ hname ht.2).bind fun opened => ?_
        obtain ⟨kind, allowParams⟩ := opened
        dsimp only
        split
        · refine (handsOver ⟨kind, name, _, .empty allowParams⟩).mono
            fun st _ st' h st₀ hlook => ?_
          obtain ⟨rfl, hlands⟩ := hlook
          exact fun hlanded => ⟨h.1 hlanded, h.2 hlands⟩
        · refine Mirrors.modify (fun _ => ⟨rfl, rfl, rfl, rfl⟩) fun st => ⟨fun st₀ hlook => ?_, ?_⟩
          · obtain ⟨rfl, hlands⟩ := hlook
            exact fun hlanded => ⟨hlanded.cons hlands, .inl (List.cons_ne_nil _ _)⟩
          · simp [Builder.inside, Frame.relocate, Body.relocate, Body.empty]
      cases problem with
      | none =>
          exact (hafterProblem ⟨⟩).mono fun _ _ _ h =>
            ⟨rfl, fun hlanded => ⟨(h hlanded).1, fun _ => (h hlanded).2⟩⟩
      | some p =>
          obtain ⟨at_, p⟩ := p
          cases p with
          | unterminated => exact Mirrors.fault_bind _ _ (hafterProblem ⟨⟩).grows
          | _ => exact Mirrors.faultAt _ _ (hafterProblem ⟨⟩).grows

theorem mirrors_run (htag : Name.isTag tag = true) (ts : List Token)
    (ht : ∀ t ∈ ts, t.Within source.length)
    (hdef : ∀ offset attrs problem selfClosing,
      .opening offset "t:def" attrs problem selfClosing ∉ ts) :
    Mirrors tag source file (run ts) (run (ts.map (Token.shift (defStart tag).length))) (fun a => a)
      fun st _ st' => (∀ t ∈ ts, t.Clean) ∧ (Landed st.frames → Landed st'.frames ∧
        ((∃ t ∈ ts, t.isBlank = false) ∨ Begun st → Begun st')) := by
  induction ts with
  | nil =>
      exact Mirrors.pure (g := fun a => a) fun st =>
        ⟨nofun, fun h => ⟨h, fun hb => hb.resolve_left nofun⟩⟩
  | cons t ts ih =>
      obtain ⟨ht, hts⟩ := List.forall_mem_cons.1 ht
      refine Mirrors.bind (mirrors_step htag ht fun offset attrs problem selfClosing heq => ?_)
        fun _ => Mirrors.get_bind fun st hst => ?_
      · exact hdef offset attrs problem selfClosing (heq ▸ List.mem_cons_self)
      · have hrest := ih hts fun offset attrs problem selfClosing hmem =>
          hdef offset attrs problem selfClosing (List.mem_cons_of_mem _ hmem)
        change MirrorsAt tag source file st _ (if !st.aborted then _ else _) _ _
        cases haborted : st.aborted with
        | true => exact ⟨hst, fun hclean => absurd hclean (hst.aborted haborted)⟩
        | false =>
            refine (hrest st hst).mono fun _ st' h st₀ hstep => ?_
            refine ⟨List.forall_mem_cons.2 ⟨hstep.1, h.1⟩, fun hlanded => ?_⟩
            obtain ⟨hlanded', hbegun⟩ := hstep.2 hlanded
            obtain ⟨hlanded'', hbegun'⟩ := h.2 hlanded'
            refine ⟨hlanded'', fun hsome => ?_⟩
            rcases hsome with ⟨u, hu, hblank⟩ | hst₀
            · rcases List.mem_cons.1 hu with rfl | hu
              · exact hbegun' (.inr (hbegun (.inl hblank)))
              · exact hbegun' (.inl ⟨u, hu, hblank⟩)
            · exact hbegun' (.inr (hbegun (.inr hst₀)))

/-! ## Where a reading starts -/

def start (file source : Bytes) : Builder := ⟨source, file, [], .empty true, [], [], false⟩

theorem steady_start (file source : Bytes) : Steady source file (start file source) :=
  ⟨rfl, rfl, nofun⟩

def afterTokens (file source : Bytes) : Builder := ((run (lex source)).run (start file source)).2

theorem readAll_eq (file source : Bytes) :
    readAll file source =
      ((closeAll ((afterTokens file source).frames.length + 1)).run
        (afterTokens file source)).2 := rfl

/-- Only open elements are closed at the end of a source, and each is a fault. -/
theorem frames_eq_nil {st : Builder} (hst : Steady source file st) {fuel : Nat}
    (h : ((closeAll (fuel + 1)).run st).2.faults = []) : st.frames = [] := by
  cases hframes : st.frames with
  | nil => rfl
  | cons f fs =>
      have hfaults := fault_bind_ne_nil hst f.pos (.unclosed f.name)
        (k := fun _ => do closeTop; closeAll fuel)
        (grows_closeTop.bind fun _ => grows_closeAll fuel)
      rw [closeAll_of_cons hframes] at h
      exact absurd h hfaults.2

def undefined : TreeSpec where
  literal _ _ := True
  interpolation _ _ := True
  invocation _ _ _ := True
  cond _ _ := True
  loop _ _ _ _ := True
  textArg _ _ _ := True
  exprArg _ _ _ := True
  block _ _ _ := True
  decl _ := True
  definition _ _ := False

def NoDefinition (source : Bytes) : Prop :=
  ∀ offset attrs problem selfClosing,
    Token.opening offset "t:def" attrs problem selfClosing ∉ lex source

theorem closed_undefined (h : NoDefinition source) : undefined.Closed source (lex source) where
  literal _ _ _ := trivial
  trim _ _ _ _ := trivial
  interpolation _ _ _ _ _ := trivial
  implicit _ _ _ := trivial
  opens offset _ attrs problem selfClosing hmem := {
    definition := fun hname _ _ => h offset attrs problem selfClosing (hname ▸ hmem)
    param := fun _ _ _ _ _ _ => trivial
    slot := fun _ _ _ _ _ => trivial
    cond := fun _ _ _ => trivial
    loop := fun _ _ _ _ _ _ _ => trivial
    textArg := fun _ _ _ _ _ _ _ _ => trivial
    exprArg := fun _ _ _ _ _ => trivial
    invocation := fun _ _ _ => trivial }

/-- What the reading of a source without faults and definitions comes to. -/
structure Flawless (tag source file : Bytes) : Prop where
  readAll : readAll file source = afterTokens file source
  steady : Steady source file (afterTokens file source)
  frames : (afterTokens file source).frames = []
  defs : (afterTokens file source).defs = []
  faults : (afterTokens file source).faults = []
  aborted : (afterTokens file source).aborted = false
  tokens : ∀ t ∈ lex source, t.Clean
  filled : Name.isBlank source = false → (afterTokens file source).root.Filled
  inside : (run ((lex source).map (Token.shift (defStart tag).length))).run
    ((start file source).inside tag) = ((), (afterTokens file source).inside tag)

theorem flawless (htag : Name.isTag tag = true) (hdef : NoDefinition source)
    (hfaults : (readAll file source).faults = []) : Flawless tag source file := by
  have hrun := mirrors_run htag (lex source) (within_of_mem_lex source) hdef (start file source)
    (steady_start file source)
  have hframes : (afterTokens file source).frames = [] := frames_eq_nil hrun.steady hfaults
  have hread : readAll file source = afterTokens file source := by
    rw [readAll_eq, closeAll_of_nil hframes]
  have hmeets := builderMeets_readAll file (closed_undefined hdef)
  rw [hread] at hfaults hmeets
  obtain ⟨-, ⟨hclean, hlanded⟩, hsame⟩ := hrun.clean hfaults
  refine ⟨hread, hrun.steady, hframes, ?_, hfaults, ?_, hclean, fun hblank => ?_, hsame⟩
  · exact List.eq_nil_iff_forall_not_mem.2 fun d hd => (hmeets.defs d hd).2.1
  · exact Bool.eq_false_iff.2 fun haborted => hrun.steady.aborted haborted hfaults
  · have hbegun := (hlanded trivial).2 (.inl (exists_mem_lex hblank))
    exact hbegun.resolve_left fun hne => hne hframes

/-! ## The definition around a source -/

theorem run_cons_eq (t : Token) (ts : List Token) (st : Builder) :
    (run (t :: ts)).run st =
      if ((step t).run st).2.aborted then ((), ((step t).run st).2)
      else (run ts).run ((step t).run st).2 := by
  change (if !((step t).run st).2.aborted then run ts else pure () : Build Unit).run
    ((step t).run st).2 = _
  cases ((step t).run st).2.aborted with
  | true => rfl
  | false => rfl

theorem run_append {ts : List Token} {st : Builder} (h : ((run ts).run st).2.aborted = false)
    (us : List Token) : (run (ts ++ us)).run st = (run us).run ((run ts).run st).2 := by
  induction ts generalizing st with
  | nil => rfl
  | cons t ts ih =>
      rw [List.cons_append, run_cons_eq, run_cons_eq]
      rw [run_cons_eq] at h
      cases haborted : ((step t).run st).2.aborted with
      | true =>
          rw [haborted] at h
          exact absurd (haborted.symm.trans h) nofun
      | false =>
          rw [haborted] at h
          exact ih h

theorem run_cons_of_step {t : Token} {ts : List Token} {st st' : Builder}
    (h : (step t).run st = ((), st')) (haborted : st'.aborted = false) :
    (run (t :: ts)).run st = (run ts).run st' := by
  rw [run_cons_eq, h, haborted]
  rfl

theorem ofOffset_zero (source : Bytes) : Pos.ofOffset source 0 = .start := by
  simp [Pos.ofOffset, Pos.lastLine, Utf8.count, Pos.start]

theorem step_defStart (htag : Name.isTag tag = true) (file source : Bytes) :
    (step (.opening 0 "t:def" [⟨7, "name", .quoted 13 tag⟩] none false)).run
      (start file (enclosed tag source)) = ((), (start file source).inside tag) := by
  have hknown : knownAttrs "t:def" ["name"] [⟨7, "name", .quoted 13 tag⟩] =
      pure [⟨7, "name", .quoted 13 tag⟩] := rfl
  have hname (pos : Pos) : nameAttr "t:def" pos [⟨7, "name", .quoted 13 tag⟩] "name" true
      Name.isTag = pure (some (some tag)) := by
    change (if Name.isTag tag then pure (some (some tag)) else _ : Build _) = _
    rw [if_pos htag]
  have hopen (pos : Pos) : (openElement pos "t:def" [⟨7, "name", .quoted 13 tag⟩]).run
      (start file (enclosed tag source)) =
        ((.definition (some tag), true), start file (enclosed tag source)) := by
    simp only [openElement, hknown, pure_bind, hname]
    rfl
  change (do
    let opened ← openElement (Pos.ofOffset (enclosed tag source) 0) "t:def"
      [⟨7, "name", .quoted 13 tag⟩]
    modify fun st : Builder => { st with
      frames := ⟨opened.1, "t:def", Pos.ofOffset (enclosed tag source) 0, .empty opened.2⟩ ::
        st.frames } : Build Unit).run (start file (enclosed tag source)) = _
  rw [StateT.run_bind, hopen, ofOffset_zero]
  rfl

theorem step_defEnd {st : Builder} (h : st.frames = []) (offset : Nat) :
    (step (.closing offset "t:def" false)).run (st.inside tag) = ((), { st.inside tag with
      frames := []
      defs := (st.inside tag).defs ++ [⟨tag, false, .start,
        st.root.decls.map (·.relocate (place tag)), st.root.nodes.map (·.relocate (place tag)),
        st.file, []⟩] }) := by
  have hframes : (st.inside tag).frames =
      [⟨.definition (some tag), "t:def", .start, st.root.relocate (place tag)⟩] := by
    simp [Builder.inside, h]
  have hclose : (closeFrames (Pos.ofOffset (st.inside tag).source offset) "t:def" false
      (st.inside tag).frames.length).run (st.inside tag) = closeTop.run (st.inside tag) :=
    run_closeFrames_top hframes _ _ _
  change (closeTag (Pos.ofOffset (st.inside tag).source offset) "t:def" false
    ((st.inside tag).frames.length + 1)).run (st.inside tag) = _
  rw [closeTag_succ, if_neg Bool.false_ne_true, hclose, run_closeTop hframes]
  rfl

theorem readAll_enclosed (htag : Name.isTag tag = true) (hdef : NoDefinition source)
    (hends : endsIn none 0 source = none) (hfaults : (readAll file source).faults = []) :
    readAll file (enclosed tag source) = ⟨enclosed tag source, file, [], .empty true,
      [⟨tag, false, .start, (readAll file source).root.decls.map (·.relocate (place tag)),
        (readAll file source).root.nodes.map (·.relocate (place tag)), file, []⟩], [], false⟩ := by
  have hflawless := flawless htag hdef hfaults
  have hbody : ((run ((lex source).map (Token.shift (defStart tag).length))).run
      ((start file source).inside tag)).2.aborted = false := by
    rw [hflawless.inside]
    exact hflawless.aborted
  have hafter : afterTokens file (enclosed tag source) = ⟨enclosed tag source, file, [], .empty true,
      [⟨tag, false, .start, (readAll file source).root.decls.map (·.relocate (place tag)),
        (readAll file source).root.nodes.map (·.relocate (place tag)), file, []⟩], [], false⟩ := by
    rw [afterTokens, lex_enclosed htag hflawless.tokens hends,
      run_cons_of_step (step_defStart htag file source) rfl, run_append hbody, hflawless.inside,
      run_cons_of_step (step_defEnd hflawless.frames _) hflawless.aborted, hflawless.readAll]
    change Builder.mk (enclosed tag (afterTokens file source).source) (afterTokens file source).file []
      (.empty true) ((afterTokens file source).defs.map (·.relocate (place tag)) ++
        [⟨tag, false, .start, _, _, (afterTokens file source).file, []⟩])
      (afterTokens file source).faults (afterTokens file source).aborted = _
    rw [hflawless.steady.source, hflawless.steady.file, hflawless.defs, hflawless.faults,
      hflawless.aborted]
    rfl
  rw [readAll_eq, closeAll_of_nil (by rw [hafter]), hafter]

/-- Inside a definition a source means what it means alone, its first line further to the right. -/
theorem parse_enclosed (htag : Name.isTag tag = true) (file path : Bytes)
    (hblank : Name.isBlank source = false) (hfaults : (parse file path source).2 = [])
    (hdef : NoDefinition source) (hends : endsIn none 0 source = none) :
    ∃ root, (parse file path source).1.defs = [root] ∧ root.isRoot = true ∧
      parse file path (enclosed tag source) =
        (⟨path, file, [⟨tag, false, .start, root.decls.map (·.relocate (place tag)),
          root.body.map (·.relocate (place tag)), file, path⟩]⟩, []) := by
  have hfaults' : (readAll file source).faults = [] := List.reverse_eq_nil_iff.1 hfaults
  have hflawless := flawless htag hdef hfaults'
  have hroot : (readAll file source).hasRoot = true := by
    rw [hflawless.readAll, Builder.hasRoot]
    rcases hflawless.filled hblank with hdecls | hnodes
    · cases hdecls' : (afterTokens file source).root.decls with
      | nil => exact absurd hdecls' hdecls
      | cons d ds => rfl
    · rw [hnodes, Bool.not_false, Bool.or_true]
  have hdefs := hflawless.defs
  rw [← hflawless.readAll] at hdefs
  rw [parse_eq, parse_eq, readAll_enclosed htag hdef hends hfaults']
  dsimp only
  rw [if_pos hroot, hdefs]
  exact ⟨_, rfl, rfl, rfl⟩

/-- A declaration, a comment with a brace in it, and an element on a second line. -/
def filledRow : Bytes :=
  "<t:param name=\"n\"/><!-- \x7d -->\n<t:row><t:slot name=\"x\">-</t:slot></t:row>"

theorem lex_filledRow : lex filledRow =
    [.opening 0 "t:param" [⟨9, "name", .quoted 15 "n"⟩] none true, .text 19 "<!-- \x7d -->\n",
      .opening 30 "t:row" [] none false,
      .opening 37 "t:slot" [⟨45, "name", .quoted 51 "x"⟩] none false,
      .text 54 "-", .closing 55 "t:slot" false, .closing 64 "t:row" false] := by
  cbv

theorem noDefinition_filledRow : NoDefinition filledRow := by
  have hnames : ∀ t ∈ lex filledRow,
      (match t with
        | .opening _ name _ _ _ => name != Bytes.ofString "t:def"
        | _ => true) = true := by
    rw [lex_filledRow]
    decide
  exact fun _ _ _ _ hmem => absurd (hnames _ hmem) (by simp)

theorem parse_enclosed_filledRow :
    Name.isTag "W" = true ∧ Name.isBlank filledRow = false ∧
      (parse "a.html" "a" filledRow).2 = [] ∧ NoDefinition filledRow ∧
      endsIn none 0 filledRow = none ∧
      ∃ root, (parse "a.html" "a" filledRow).1.defs = [root] ∧ root.isRoot = true ∧
        parse "a.html" "a" (enclosed "W" filledRow) =
          (⟨"a", "a.html", [⟨"W", false, .start, root.decls.map (·.relocate (place "W")),
            root.body.map (·.relocate (place "W")), "a.html", "a"⟩]⟩, []) := by
  have htag : Name.isTag "W" = true := by decide
  have hblank : Name.isBlank filledRow = false := by decide
  have hfaults : (parse "a.html" "a" filledRow).2 = [] := by
    rw [parse_eq, readAll_eq, afterTokens, lex_filledRow]
    decide
  have hends : endsIn none 0 filledRow = none := by decide +kernel
  exact ⟨htag, hblank, hfaults, noDefinition_filledRow, hends,
    parse_enclosed htag _ _ hblank hfaults noDefinition_filledRow hends⟩

end TagLoom.Template

import TagLoom.Proofs.Template.FaultPlace

/-!
# The limit on faults

Faults are noted all over the reading of a source, also while the elements around a fault are closed.
Each is noted at a place of the source, and the one that reaches the limit is replaced by a notice,
behind which nothing is noted.  So every condition on the faults that a single fault keeps is kept by
each part of the reading.
-/

namespace TagLoom.Template

open Build

/-- A condition on the faults that are noted that a fault at some places keeps. -/
def Lasting (P : Pos → Prop) (J : List (Pos × Fault) → Bool → Prop) : Prop :=
  ∀ st : Builder, ∀ pos f, P pos → f ≠ .tooMany → J st.faults st.aborted →
    J (st.note pos f).faults (st.note pos f).aborted

/-- The places an open element has for faults: its own, that of the declaration it becomes, and if it
is a conditional those of its nodes.  No declaration drops these. -/
structure Frame.Sited (P : Pos → Prop) (f : Frame) : Prop where
  pos : P f.pos
  decl : ∀ d, f.kind = .param (some d) → P d.pos
  branch : ∀ test otherwise, f.kind = .cond test otherwise →
    f.body.allowParams = false ∧ f.body.headerOpen = false ∧ ∀ n ∈ f.body.nodes, P n.pos

/-- A reading with its places for faults, and a condition on the faults. -/
structure Noting (source : Bytes) (P : Pos → Prop) (J : List (Pos × Fault) → Bool → Prop)
    (st : Builder) : Prop where
  source : st.source = source
  frames : ∀ f ∈ st.frames, f.Sited P
  faults : J st.faults st.aborted

@[simp] theorem Builder.source_note (pos : Pos) (f : Fault) (st : Builder) :
    (st.note pos f).source = st.source := by
  unfold note
  repeat' split
  all_goals rfl

@[simp] theorem Builder.frames_note (pos : Pos) (f : Fault) (st : Builder) :
    (st.note pos f).frames = st.frames := by
  unfold note
  repeat' split
  all_goals rfl

section Pass

variable {source : Bytes} {P : Pos → Prop} {J : List (Pos × Fault) → Bool → Prop} {f : Frame}
  {fs : List Frame} {st : Builder} {n : Node} {d : Declaration}

theorem Noting.bears (hJ : Lasting P J) : Bears source P (Noting source P J) where
  source := fun _ hst => hst.source
  note st pos f hpos hf hst :=
    ⟨by simp [hst.source], by simpa using hst.frames, hJ st pos f hpos hf hst.faults⟩

theorem Noting.push (hst : Noting source P J st) (hf : f.Sited P) (hfs : ∀ g ∈ fs, g.Sited P) :
    Noting source P J { st with frames := f :: fs } :=
  ⟨hst.source, List.forall_mem_cons.2 ⟨hf, hfs⟩, hst.faults⟩

theorem Noting.pop (hst : Noting source P J st) (h : st.frames = f :: fs) :
    f.Sited P ∧ Noting source P J { st with frames := fs } := by
  have hframes := hst.frames
  rw [h, List.forall_mem_cons] at hframes
  exact ⟨hframes.1, hst.source, hframes.2, hst.faults⟩

/-! ## Bodies -/

theorem Frame.Sited.add (hf : f.Sited P) (hn : P n.pos) :
    Frame.Sited P { f with body := f.body.add n } := by
  refine ⟨hf.pos, hf.decl, fun test otherwise hkind => ?_⟩
  obtain ⟨hallow, hheader, hnodes⟩ := hf.branch test otherwise hkind
  have hadd : f.body.add n = { f.body with nodes := f.body.nodes ++ [n] } := by
    rw [Body.add, hheader, if_neg Bool.false_ne_true, ← hheader]
  rw [hadd]
  exact ⟨hallow, hheader, List.forall_mem_append.2 ⟨hnodes, List.forall_mem_singleton.2 hn⟩⟩

theorem Frame.Sited.addDecl (hf : f.Sited P) {b : Body} (h : f.body.addDecl d = .ok b) :
    Frame.Sited P { f with body := b } := by
  refine ⟨hf.pos, hf.decl, fun test otherwise hkind => ?_⟩
  obtain ⟨hallow, -⟩ := hf.branch test otherwise hkind
  rw [Body.addDecl, hallow] at h
  cases h

theorem ne_tooMany_of_addDecl {b : Body} {e : Fault} (h : b.addDecl d = .error e) :
    e ≠ .tooMany := by
  unfold Body.addDecl at h
  split at h
  · cases h
    nofun
  split at h
  · cases h
    nofun
  split at h
  · cases h
    nofun
  · cases h

theorem noting_addNode (hn : P n.pos) :
    Keeps (Noting source P J) (addNode n) fun _ => True := by
  refine Keeps.modify fun st hst => ?_
  split
  · exact ⟨hst.source, hst.frames, hst.faults⟩
  · rename_i frame frames hframes
    obtain ⟨hf, hrest⟩ := hst.pop hframes
    exact hst.push (hf.add hn) hrest.frames

theorem noting_addDecl (hJ : Lasting P J) (hd : P d.pos) :
    Keeps (Noting source P J) (addDecl d) fun _ => True := by
  intro st hst
  obtain ⟨e, hadd, hrun⟩ | ⟨b, hadd, hrun⟩ := addDecl_cases d st
  · rw [hrun]
    exact (Noting.bears hJ).fault hd (ne_tooMany_of_addDecl hadd) st hst
  · rw [hrun]
    obtain ⟨-, hrun⟩ | ⟨frame, frames, hframes, hrun⟩ := modifyBody_cases (fun _ => b) st
    · rw [hrun]
      exact ⟨⟨hst.source, hst.frames, hst.faults⟩, trivial⟩
    · rw [hrun]
      rw [hframes] at hadd
      obtain ⟨hf, hrest⟩ := hst.pop hframes
      exact ⟨hst.push (hf.addDecl hadd) hrest.frames, trivial⟩

/-! ## Closing elements -/

theorem noting_checkAfterElse (hJ : Lasting P J) {nodes : List Node} (h : ∀ n ∈ nodes, P n.pos) :
    Keeps (Noting source P J) (checkAfterElse nodes) fun _ => True := by
  unfold checkAfterElse
  split
  · rename_i n hfind
    exact (Noting.bears hJ).fault (h n (List.mem_of_find?_eq_some hfind)) (by nofun)
  · exact Keeps.pure trivial

theorem noting_deliver (hJ : Lasting P J) {frame : Frame} (hframe : frame.Sited P) :
    Keeps (Noting source P J) (deliver frame) fun _ => True := by
  have hfault {e : Fault} (he : e ≠ .tooMany) :
      Keeps (Noting source P J) (fault frame.pos e) fun _ => True :=
    (Noting.bears hJ).fault hframe.pos he
  unfold deliver
  extract_lets nodes
  cases hk : frame.kind with
  | definition name =>
      cases name with
      | none => exact Keeps.pure trivial
      | some name => exact Keeps.modify fun st hst => ⟨hst.source, hst.frames, hst.faults⟩
  | param decl =>
      exact ensures_deliver_param frame.name (hfault (by simp)) (Keeps.pure trivial)
        fun d hd => noting_addDecl hJ (hframe.decl d (hd ▸ hk))
  | slot name =>
      cases name with
      | none => exact Keeps.pure trivial
      | some name =>
          refine Keeps.modify fun st hst => ?_
          split
          · rename_i f frames hframes
            obtain ⟨hf, hrest⟩ := hst.pop hframes
            split
            · exact hst.push ⟨hf.pos, by simp, by simp⟩ hrest.frames
            · exact hst
          · exact hst
  | cond test otherwise =>
      obtain ⟨-, -, hnodes⟩ := hframe.branch test otherwise hk
      exact ensures_deliver_cond frame.name
        (fun _ => noting_checkAfterElse hJ fun n hn => hnodes n (List.mem_of_mem_drop hn))
        (Keeps.pure trivial) fun _ _ => noting_addNode hframe.pos
  | otherwise =>
      refine Keeps.get_bind fun st hst => ?_
      split
      · rename_i f frames hframes
        obtain ⟨hf, hrest⟩ := hst.pop hframes
        split
        · rename_i test hkind
          have hbranch := hf.branch test none hkind
          exact Keeps.set (hst.push ⟨hf.pos, by simp, fun _ _ _ => hbranch⟩ hrest.frames)
        · exact hfault (by simp)
        · exact hfault (by simp)
      · exact hfault (by simp)
  | loop head =>
      cases head with
      | none => exact Keeps.pure trivial
      | some head => exact noting_addNode hframe.pos
  | invocation args slots => exact noting_addNode hframe.pos

theorem noting_closeTop (hJ : Lasting P J) :
    Keeps (Noting source P J) closeTop fun _ => True := by
  refine Keeps.get_bind fun st hst => ?_
  split
  · exact Keeps.pure trivial
  · rename_i frame frames hframes
    obtain ⟨hf, hrest⟩ := hst.pop hframes
    exact (Keeps.set hrest).skip fun _ => noting_deliver hJ hf

theorem noting_closeTag (hJ : Lasting P J) {pos : Pos} (hpos : P pos) (name : Bytes)
    (malformed : Bool) (fuel : Nat) :
    Keeps (Noting source P J) (closeTag pos name malformed fuel) fun _ => True := by
  have hfault {e : Fault} (he : e ≠ .tooMany) :
      Keeps (Noting source P J) (fault pos e) fun _ => True :=
    (Noting.bears hJ).fault hpos he
  induction fuel with
  | zero => exact Keeps.pure trivial
  | succ fuel ih =>
      have hclose : Keeps (Noting source P J) (closeFrames pos name malformed fuel)
          fun _ => True := by
        refine Keeps.get_bind fun st hst => ?_
        split
        · exact hfault (by nofun)
        rename_i frame frames hframes
        have hframe := (hst.pop hframes).1
        split
        · exact noting_closeTop hJ
        split
        · refine ((Noting.bears hJ).fault hframe.pos (by nofun)).skip fun _ =>
            (noting_closeTop hJ).skip fun _ => Keeps.get_bind fun st hst => ?_
          split
          · exact ih
          · exact Keeps.pure trivial
        · exact hfault (by nofun)
      rw [closeTag_succ]
      split
      · exact (hfault (by nofun)).skip fun _ => hclose
      · exact hclose

theorem noting_closeAll (hJ : Lasting P J) (fuel : Nat) :
    Keeps (Noting source P J) (closeAll fuel) fun _ => True := by
  induction fuel with
  | zero => exact Keeps.pure trivial
  | succ fuel ih =>
      refine Keeps.get_bind fun st hst => ?_
      split
      · exact Keeps.pure trivial
      · rename_i frame frames hframes
        exact ((Noting.bears hJ).fault (hst.pop hframes).1.pos (by nofun)).skip fun _ =>
          (noting_closeTop hJ).skip fun _ => ih

/-! ## Tokens -/

theorem OpenedBy.sited {pos : Pos} {name : Bytes} {attrs : List Attr} {kind : Opened}
    {allowParams : Bool} (h : OpenedBy source pos name attrs (kind, allowParams)) (hpos : P pos) :
    Frame.Sited P ⟨kind, name, pos, .empty allowParams⟩ := by
  cases h with
  | cond => exact ⟨hpos, nofun, fun _ _ _ => ⟨rfl, rfl, nofun⟩⟩
  | param hname hdecl =>
      refine ⟨hpos, fun d hd => ?_, nofun⟩
      rw [(hdecl d (Opened.param.inj hd)).1]
      exact hpos
  | _ => exact ⟨hpos, nofun, nofun⟩

variable {J : List (Pos × Fault) → Bool → Prop}

theorem noting_step (hJ : Lasting (FaultSite source) J) {t : Token} (ht : t.Sited source) :
    Keeps (Noting source (FaultSite source) J) (step t) fun _ => True := by
  have hbears : Bears source (FaultSite source) (Noting source (FaultSite source) J) :=
    Noting.bears hJ
  cases t with
  | text offset s =>
      refine (hbears.posOf offset).bind fun pos hpos => noting_addNode ?_
      exact ⟨offset, ht, hpos⟩
  | interpolation offset s =>
      refine (hbears.posOf offset).bind fun pos hpos => ?_
      have hsite : FaultSite source pos := ⟨offset, ht, hpos⟩
      split
      · exact hbears.fault hsite (by nofun)
      split
      · exact hbears.fault hsite (by nofun)
      split
      · exact noting_addNode hsite
      · exact hbears.fault hsite (by nofun)
  | closing offset name malformed =>
      exact (hbears.posOf offset).bind fun pos hpos => Keeps.get_bind fun _ _ =>
        noting_closeTag hJ ⟨offset, ht, hpos⟩ name malformed _
  | opening offset name attrs problem selfClosing =>
      obtain ⟨hoffset, hattrs, hproblem⟩ := ht
      refine (hbears.posOf offset).bind fun pos hpos => ?_
      have hsite : FaultSite source pos := ⟨offset, hoffset, hpos⟩
      extract_lets afterProblem
      have hafterProblem : ∀ r, Keeps (Noting source (FaultSite source) J) (afterProblem r)
          fun _ => True := by
        intro r
        refine (hbears.openElement hsite name hattrs).bind fun opened hopened => ?_
        obtain ⟨kind, allowParams⟩ := opened
        have hframe := hopened.sited hsite
        dsimp only
        split
        · exact noting_deliver hJ hframe
        · exact Keeps.modify fun st hst => hst.push hframe hst.frames
      split
      · exact (hbears.fault hsite (by nofun)).skip hafterProblem
      · rename_i at_ p hne
        refine (hbears.posOf at_).bind fun place hplace => ?_
        have hat : FaultSite source place :=
          ⟨at_, hproblem _ rfl hne, hplace⟩
        refine (hbears.fault hat ?_).skip hafterProblem
        cases p <;> nofun
      · exact hafterProblem ()

theorem noting_run (hJ : Lasting (FaultSite source) J) {ts : List Token}
    (hts : ∀ t ∈ ts, t.Sited source) :
    Keeps (Noting source (FaultSite source) J) (run ts) fun _ => True := by
  induction ts with
  | nil => exact Keeps.pure trivial
  | cons t ts ih =>
      obtain ⟨ht, hts⟩ := List.forall_mem_cons.1 hts
      refine (noting_step hJ ht).skip fun _ => Keeps.get_bind fun st hst => ?_
      split
      · exact ih hts
      · exact Keeps.pure trivial

end Pass

/-! ## The limit -/

/-- The faults of a reading that notes faults at some places: fewer than the limit, or the notice
behind fewer than the limit. -/
structure Tally (P : Pos → Prop) (faults : List (Pos × Fault)) (aborted : Bool) : Prop where
  sited : ∀ e ∈ faults, P e.1
  going : aborted = false → faults.length < maxFaults ∧ ∀ e ∈ faults, e.2 ≠ .tooMany
  given : aborted = true → faults.length = maxFaults ∧
    ∃ pos earlier, faults = (pos, .tooMany) :: earlier ∧ ∀ e ∈ earlier, e.2 ≠ .tooMany

theorem lasting_tally (P : Pos → Prop) : Lasting P (Tally P) := by
  intro st pos f hpos hf hst
  cases haborted : st.aborted with
  | true =>
      rw [Builder.note, haborted, if_pos rfl, haborted]
      exact haborted ▸ hst
  | false =>
      obtain ⟨hlt, hnone⟩ := hst.going haborted
      rw [Builder.note, haborted, if_neg Bool.false_ne_true]
      split
      · rename_i hlimit
        refine ⟨List.forall_mem_cons.2 ⟨hpos, hst.sited⟩, by simp, fun _ => ⟨?_, _, _, rfl, hnone⟩⟩
        simp only [List.length_cons]
        omega
      · rename_i hlimit
        refine ⟨List.forall_mem_cons.2 ⟨hpos, hst.sited⟩, fun _ => ⟨?_, ?_⟩, fun h => ?_⟩
        · simp only [List.length_cons]
          omega
        · exact List.forall_mem_cons.2 ⟨hf, hnone⟩
        · cases h

variable {P : Pos → Prop} {faults : List (Pos × Fault)} {aborted : Bool}

theorem Tally.length_le (h : Tally P faults aborted) : faults.length ≤ maxFaults := by
  cases aborted with
  | false => exact Nat.le_of_lt (h.going rfl).1
  | true => exact Nat.le_of_eq (h.given rfl).1

theorem Tally.length_eq_iff (h : Tally P faults aborted) :
    faults.length = maxFaults ↔ aborted = true := by
  cases aborted with
  | false => simp [Nat.ne_of_lt (h.going rfl).1]
  | true => simp [(h.given rfl).1]

theorem Tally.tooMany_iff (h : Tally P faults aborted) {i : Nat} {e : Pos × Fault}
    (he : faults.reverse[i]? = some e) : e.2 = .tooMany ↔ i + 1 = maxFaults := by
  have hmem : e ∈ faults := List.mem_reverse.1 (List.mem_of_getElem? he)
  have hlt : i < faults.length := by simpa using (List.getElem?_eq_some_iff.1 he).1
  cases aborted with
  | false =>
      obtain ⟨hlimit, hnone⟩ := h.going rfl
      exact iff_of_false (hnone e hmem) (by omega)
  | true =>
      obtain ⟨hlimit, pos, earlier, rfl, hnone⟩ := h.given rfl
      rw [List.length_cons] at hlimit hlt
      rw [List.reverse_cons] at he
      rcases Nat.lt_or_ge i earlier.length with hi | hi
      · rw [List.getElem?_append_left (by simpa using hi)] at he
        have hearlier : e ∈ earlier := List.mem_reverse.1 (List.mem_of_getElem? he)
        exact iff_of_false (hnone e hearlier) (by omega)
      · obtain rfl : i = earlier.reverse.length := by simp; omega
        rw [List.getElem?_concat_length] at he
        obtain rfl := Option.some.inj he
        exact iff_of_true rfl (by simpa using hlimit)

theorem lasting_given (P : Pos → Prop) (faults : List (Pos × Fault)) :
    Lasting P fun noted aborted => aborted = true ∧ noted = faults := by
  intro st pos f _ _ hst
  rw [Builder.note, hst.1, if_pos rfl]
  exact hst

theorem run_append_of_aborted {ts : List Token} {st : Builder} (hst : st.aborted = false)
    (h : ((run ts).run st).2.aborted = true) (us : List Token) :
    ((run (ts ++ us)).run st).2 = ((run ts).run st).2 := by
  induction ts generalizing st with
  | nil => exact absurd (hst.symm.trans h) Bool.false_ne_true
  | cons t ts ih =>
      rw [run_cons_eq] at h
      rw [List.cons_append, run_cons_eq, run_cons_eq]
      cases hstep : ((step t).run st).2.aborted with
      | true => rfl
      | false =>
          rw [hstep] at h
          exact ih hstep h

theorem noting_start (file source : Bytes) {J : List (Pos × Fault) → Bool → Prop}
    (hJ : J [] false) : Noting source (FaultSite source) J (start file source) :=
  ⟨rfl, nofun, hJ⟩

/-- All faults of a source are counted, those noted while its elements are closed too. -/
theorem tally_readAll (file source : Bytes) :
    Tally (FaultSite source) (readAll file source).faults (readAll file source).aborted := by
  have hJ := lasting_tally (FaultSite source)
  have hstart : Tally (FaultSite source) [] false :=
    ⟨nofun, fun _ => ⟨by decide, nofun⟩, nofun⟩
  have hrun := (noting_run hJ (sited_lex source) _ (noting_start file source hstart)).1
  rw [readAll_eq]
  exact (noting_closeAll hJ _ _ hrun).1.faults

/-- The rest of a source that was given up, and the elements that are still open in it, add no
faults. -/
theorem faults_of_given {file source : Bytes} {ts us : List Token} (hlex : lex source = ts ++ us)
    (h : ((run ts).run (start file source)).2.aborted = true) :
    (readAll file source).faults = ((run ts).run (start file source)).2.faults := by
  have hts : ∀ t ∈ ts, t.Sited source := fun t ht =>
    sited_lex source t (hlex ▸ List.mem_append_left us ht)
  have htrivial : Lasting (FaultSite source) fun _ _ => True := fun _ _ _ _ _ _ => trivial
  have hreached := (noting_run htrivial hts _ (noting_start file source trivial)).1
  have hafter : afterTokens file source = ((run ts).run (start file source)).2 := by
    rw [afterTokens, hlex]
    exact run_append_of_aborted rfl h us
  rw [readAll_eq, hafter]
  have hgiven := lasting_given (FaultSite source) ((run ts).run (start file source)).2.faults
  have hstate : Noting source (FaultSite source) (fun noted aborted => aborted = true ∧
      noted = ((run ts).run (start file source)).2.faults) ((run ts).run (start file source)).2 :=
    ⟨hreached.source, hreached.frames, h, rfl⟩
  exact (noting_closeAll hgiven _ _ hstate).1.faults.2

/-! ## Diagnostics -/

theorem message_eq_tooMany_iff (f : Fault) :
    f.message = Bytes.ofString "too many errors, giving up on this file" ↔ f = .tooMany := by
  constructor
  · intro h
    have hhead := congrArg (fun s : Bytes => s.head? == some 't'.toUInt8) h
    cases f with
    | tooMany => rfl
    -- every other message starts with another letter
    | _ => exact absurd hhead Bool.false_ne_true
  · rintro rfl
    rfl

/-- Reading a source gives at most 25 diagnostics, all of them errors in the source at a place of the
file.  There are 25 exactly when the source was given up, and then the last one and no other is the
notice: nothing is noted behind it, although the elements that are open are still closed. -/
theorem diagnostics_limited (file path source : Bytes) :
    let read := readAll file source
    let ds := diagnostics file (parse file path source).2
    ds.length ≤ 25 ∧
    (∀ d ∈ ds, d.kind = .source ∧ d.severity = .error ∧ d.file = file ∧
      ∃ (row : Nat) (line : Bytes), d.line = row + 1 ∧ (Bytes.lines source)[row]? = some line ∧
        1 ≤ d.column ∧ d.column ≤ Utf8.count line + 1) ∧
    (ds.length = 25 ↔ read.aborted = true) ∧
    (∀ i d, ds[i]? = some d →
      (d.message = Bytes.ofString "too many errors, giving up on this file" ↔ i = 24)) ∧
    ∀ ts us, lex source = ts ++ us →
      ((run ts).run (start file source)).2.aborted = true →
        read.faults = ((run ts).run (start file source)).2.faults := by
  intro read ds
  have htally : Tally (FaultSite source) read.faults read.aborted := tally_readAll file source
  have hds : ds = diagnostics file read.faults.reverse := rfl
  have hlen : ds.length = read.faults.length := by simp [hds, diagnostics]
  refine ⟨?_, fun d hd => ?_, ?_, fun i d hd => ?_, fun ts us hlex h => faults_of_given hlex h⟩
  · rw [hlen]
    exact htally.length_le
  · obtain ⟨⟨pos, f⟩, hf, rfl⟩ := List.mem_map.1 hd
    obtain ⟨o, hwhole, rfl⟩ := htally.sited _ (List.mem_reverse.1 hf)
    obtain ⟨line, hline, hcolumn⟩ := hwhole.column_le
    have hone : 1 ≤ (Pos.ofOffset source o).column := Nat.succ_le_succ (Nat.zero_le _)
    refine ⟨rfl, rfl, rfl, (Pos.ofOffset source o).line - 1, line, rfl, hline, ?_, ?_⟩
    · exact Int.ofNat_le.2 hone
    · exact Int.ofNat_le.2 hcolumn
  · rw [hlen]
    exact htally.length_eq_iff
  · rw [hds, diagnostics, List.getElem?_map, Option.map_eq_some_iff] at hd
    obtain ⟨⟨pos, f⟩, he, rfl⟩ := hd
    have hnotice := htally.tooMany_iff he
    exact (message_eq_tooMany_iff f).trans (hnotice.trans (by simp [maxFaults]))

set_option maxRecDepth 2000 in
example : (diagnostics "a" (parse "a" "a"
    (List.replicate 26 (Bytes.ofString "\x7b\x7d")).flatten).2).length = 25 := by cbv

end TagLoom.Template

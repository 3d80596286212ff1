import TagLoom.Proofs.Template.Frames
import TagLoom.Proofs.Template.Local
import TagLoom.Proofs.Template.Mark

/-!
# Reading in one loop

A source is read in one loop over its offsets.  An iteration takes the lexeme at an offset and goes
on behind it.  Only a closing tag can be left where it stands: when it names an element around the
innermost one, it closes the innermost one and is found again by the next iteration.  So what is left
to do, two for each byte and one for each open element, becomes less with every iteration.
-/

namespace TagLoom.Template

open Build

/-- A place in the reading of a source: the raw text that is due from some offset on, the text that
is no node yet with the offset it starts at, and what was built. -/
structure Cursor where
  offset : Nat
  raw : Option RawText
  pending : Option (Nat × Bytes)
  built : Builder

/-- The state with the fault of a closing tag that is malformed. -/
def noteMalformed (pos : Pos) (name : Bytes) (malformed : Bool) (st : Builder) : Builder :=
  if malformed then ((fault pos (.malformedClosing name)).run st).2 else st

/-- The answer of the innermost element to a closing tag, and whether the tag is done with then. -/
def answer? (offset : Nat) (name : Bytes) (malformed : Bool) (st : Builder) :
    Option (Builder × Bool) :=
  let pos := Pos.ofOffset st.source offset
  let st := noteMalformed pos name malformed st
  match st.frames with
  | [] => some (((fault pos (.unexpectedClosing name)).run st).2, true)
  | frame :: frames =>
      if frame.name == name then (closeTop? st).map (·, true)
      else if frames.any (·.name == name) then
        (closeTop? ((fault frame.pos (.unclosed frame.name)).run st).2).map (·, false)
      else some (((fault pos (.unexpectedClosing name)).run st).2, true)

namespace Cursor

variable (source : Bytes) (r : Cursor)

def start (file source : Bytes) : Cursor := ⟨0, none, none, Template.start file source⟩

/-- The names of the open elements, innermost first. -/
def names : List Bytes := r.built.frames.map (·.name)

def Ended : Prop := r.built.aborted = true ∨ source.length ≤ r.offset

/-- The pending text as a node. -/
def flushed : Builder :=
  match r.pending with
  | none => r.built
  | some (o, s) => ((step (.text o s)).run r.built).2

/-- The pending text with a piece at the offset behind it. -/
def write (piece : Bytes) : Nat × Bytes :=
  match r.pending with
  | none => (r.offset, piece)
  | some (o, s) => (o, s ++ piece)

def next? : Option Cursor := do
  let m ← lexAt? source r.raw r.offset
  match m.found with
  | .text piece => some ⟨m.stop, m.raw, some (r.write piece), r.built⟩
  | .token (.closing offset name malformed) =>
      let (st, done) ← answer? offset name malformed r.flushed
      some ⟨if done then m.stop else r.offset, m.raw, none, st⟩
  | .token t => some ⟨m.stop, m.raw, none, ((step t).run r.flushed).2⟩

def iterate? : Nat → Cursor → Option Cursor
  | 0, r => some r
  | n + 1, r => r.next? source >>= iterate? n

/-- Closes what is open when the loop is over. -/
def finish? : Option Builder := closeAll? (r.flushed.frames.length + 1) r.flushed

def tokens : List Token :=
  let ts := lexFrom r.raw r.offset (source.drop r.offset)
  match r.pending with
  | none => ts
  | some (o, s) => consText o s ts

def outcome : Builder :=
  if r.built.aborted then r.built else ((run (r.tokens source)).run r.built).2

/-- What holds at every place in the reading of a source. -/
structure Sound : Prop where
  le : r.offset ≤ source.length
  ahead : ∃ ahead : Option RawAhead, r.raw = ahead.map (·.within source.length)
  nested : Nested source r.names r.built
  pending : ∀ o s, r.pending = some (o, s) → r.built.aborted = false ∧ s ≠ []

def left : Nat := 2 * (source.length - r.offset) + r.names.length

end Cursor

/-! ## Closing tags -/

section Answers

variable {source name : Bytes} {names : List Bytes} {st : Builder} {offset : Nat} {malformed : Bool}

/-- How the innermost element answers a closing tag, and what the tag comes to. -/
inductive Answered (source : Bytes) (names : List Bytes) (offset : Nat) (name : Bytes)
    (malformed : Bool) (st st' : Builder) : Bool → Prop where
  | closed {rest : List Bytes} (hnames : names = name :: rest) (hst' : Nested source rest st')
      (hstep : ((step (.closing offset name malformed)).run st).2 = st') :
      Answered source names offset name malformed st st' true
  | unknown (hname : name ∉ names) (hst' : Nested source names st')
      (hstep : ((step (.closing offset name malformed)).run st).2 = st') :
      Answered source names offset name malformed st st' true
  | left {inner : Bytes} {rest : List Bytes} (hnames : names = inner :: rest) (hne : inner ≠ name)
      (hmem : name ∈ rest) (hst' : Nested source rest st')
      (hstep : ((step (.closing offset name malformed)).run st).2 =
        if st'.aborted then st' else ((step (.closing offset name malformed)).run st').2) :
      Answered source names offset name malformed st st' false

theorem step_closing (offset : Nat) (name : Bytes) (malformed : Bool) (st : Builder) :
    (step (.closing offset name malformed)).run st =
      (closeFrames (Pos.ofOffset st.source offset) name malformed st.frames.length).run
        (noteMalformed (Pos.ofOffset st.source offset) name malformed st) := by
  change (closeTag (Pos.ofOffset st.source offset) name malformed (st.frames.length + 1)).run st = _
  rw [closeTag_succ, noteMalformed]
  cases malformed with
  | true => rfl
  | false => rfl

/-- The state after the innermost element was closed because a tag names one around it. -/
def leave (frame : Frame) (st : Builder) : Builder :=
  (closeTop.run ((fault frame.pos (.unclosed frame.name)).run st).2).2

theorem run_leave (frame : Frame) (k : Build Unit) (st : Builder) :
    ((do
      fault frame.pos (.unclosed frame.name)
      closeTop
      if !(← get).aborted then k : Build Unit).run st).2 =
      if (leave frame st).aborted then leave frame st else (k.run (leave frame st)).2 := by
  change ((if !(leave frame st).aborted then k else pure () : Build Unit).run
    (leave frame st)).2 = _
  cases (leave frame st).aborted with
  | true => rfl
  | false => rfl

theorem nested_noteMalformed (hst : Nested source names st) (pos : Pos) (name : Bytes)
    (malformed : Bool) : Nested source names (noteMalformed pos name malformed st) := by
  cases malformed with
  | true => exact (keeps_fault Nested.blind _ _ st hst).1
  | false => exact hst

theorem answer?_spec (hst : Nested source names st) (offset : Nat) (name : Bytes)
    (malformed : Bool) :
    ∃ st' done, answer? offset name malformed st = some (st', done) ∧
      Answered source names offset name malformed st st' done := by
  have hlen : st.frames.length = names.length := by rw [← hst.names, List.length_map]
  have hstep := congrArg Prod.snd (step_closing offset name malformed st)
  have hnoted := nested_noteMalformed hst (Pos.ofOffset st.source offset) name malformed
  rw [answer?]
  rw [hst.source] at hstep hnoted ⊢
  generalize noteMalformed (Pos.ofOffset source offset) name malformed st = st₁ at hstep hnoted ⊢
  have hnames := hnoted.names
  generalize hpos : Pos.ofOffset source offset = pos at hstep ⊢
  have hclose : (closeFrames pos name malformed st.frames.length).run st₁ =
      (match st₁.frames with
      | [] => fault pos (.unexpectedClosing name)
      | frame :: frames =>
          if frame.name == name then closeTop
          else if frames.any (·.name == name) then do
            fault frame.pos (.unclosed frame.name)
            closeTop
            if !(← get).aborted then closeTag pos name malformed st.frames.length
          else fault pos (.unexpectedClosing name) : Build Unit).run st₁ := rfl
  rw [hclose] at hstep
  clear hclose
  have hunexpected := (keeps_fault Nested.blind pos (.unexpectedClosing name) st₁ hnoted).1
  cases hframes : st₁.frames with
  | nil =>
      rw [hframes] at hnames hstep
      subst hnames
      exact ⟨_, true, rfl, .unknown (by simp) hunexpected hstep⟩
  | cons frame frames =>
      rw [hframes, List.map_cons] at hnames
      rw [hframes] at hstep
      subst hnames
      dsimp only at hstep ⊢
      split
      · rename_i hname
        rw [if_pos hname] at hstep
        rw [closeTop?_eq hnoted]
        have hrest : Nested source (frames.map (·.name)) (closeTop.run st₁).2 :=
          nested_closeTop hnoted
        exact ⟨_, true, rfl, .closed (by rw [eq_of_beq hname]) hrest hstep⟩
      rename_i hname
      rw [if_neg hname] at hstep
      split
      · rename_i hany
        rw [if_pos hany] at hstep
        have hunclosed := (keeps_fault Nested.blind frame.pos (.unclosed frame.name) st₁ hnoted).1
        rw [closeTop?_eq hunclosed]
        have hrest : Nested source (frames.map (·.name)) (leave frame st₁) :=
          nested_closeTop hunclosed
        refine ⟨_, false, rfl, .left rfl (by simpa using hname) (by simpa using hany) hrest ?_⟩
        have hlen' : st.frames.length = (leave frame st₁).frames.length + 1 := by
          rw [hlen, List.length_cons, ← hrest.names, List.length_map]
        rw [hstep, run_leave, hlen', ← hpos, ← hrest.source]
        rfl
      · rename_i hany
        rw [if_neg hany] at hstep
        refine ⟨_, true, rfl, .unknown ?_ hunexpected hstep⟩
        rintro (_ | ⟨_, hmem⟩)
        · simp at hname
        · exact hany (by simpa using List.mem_map.1 hmem)

end Answers

/-! ## Iterations -/

theorem run_cons (t : Token) (ts : List Token) (st : Builder) :
    ((run (t :: ts)).run st).2 =
      if ((step t).run st).2.aborted then ((step t).run st).2
      else ((run ts).run ((step t).run st).2).2 := by
  rw [run_cons_eq, apply_ite Prod.snd]

theorem aborted_step_text (o : Nat) (s : Bytes) (st : Builder) :
    ((step (.text o s)).run st).2.aborted = st.aborted := by
  change (match st.frames with
    | [] => { st with root := _ }
    | frame :: frames => { st with frames := { frame with body := _ } :: frames }).aborted = _
  cases st.frames with
  | nil => rfl
  | cons frame frames => rfl

theorem consText_consText {o o' : Nat} {piece : Bytes} (hpiece : piece ≠ []) (s : Bytes)
    (ts : List Token) : consText o s (consText o' piece ts) = consText o (s ++ piece) ts := by
  have hcons (ts : List Token) (hts : ∀ o s us, ts ≠ .text o s :: us) :
      consText o s (consText o' piece ts) = consText o (s ++ piece) ts := by
    rw [consText.eq_2 o' piece ts hts, consText.eq_2 o (s ++ piece) ts hts]
    simp [consText, hpiece]
  cases ts with
  | nil => exact hcons [] (by simp)
  | cons t ts =>
      cases t with
      | text o'' more => simp [consText]
      | _ => exact hcons _ (by simp)

namespace Cursor

variable {source : Bytes} {r r' : Cursor}

theorem Sound.nested_flushed (hr : r.Sound source) : Nested source r.names r.flushed := by
  rw [flushed]
  split
  · exact hr.nested
  · exact (nested_text _ _ _ hr.nested).1

/-- What an iteration does with the lexeme at its offset. -/
inductive Next (source : Bytes) (r : Cursor) : Cursor → Prop where
  | text {m : Mark} {piece : Bytes} (hlex : lexAt? source r.raw r.offset = some m)
      (hfits : m.Fits source r.raw r.offset) (hfound : m.found = .text piece) :
      Next source r ⟨m.stop, m.raw, some (r.write piece), r.built⟩
  | token {m : Mark} {t : Token} {names : List Bytes} (hlex : lexAt? source r.raw r.offset = some m)
      (hfits : m.Fits source r.raw r.offset) (hfound : m.found = .token t)
      (hclosing : ∀ offset name malformed, t ≠ .closing offset name malformed)
      (hnested : Nested source names ((step t).run r.flushed).2)
      (hlen : names.length ≤ r.names.length + 1) :
      Next source r ⟨m.stop, m.raw, none, ((step t).run r.flushed).2⟩
  | closing {m : Mark} {offset : Nat} {name : Bytes} {malformed done : Bool} {st : Builder}
      (hlex : lexAt? source r.raw r.offset = some m) (hfits : m.Fits source r.raw r.offset)
      (hfound : m.found = .token (.closing offset name malformed))
      (hanswer : Answered source r.names offset name malformed r.flushed st done) :
      Next source r ⟨if done then m.stop else r.offset, m.raw, none, st⟩

theorem Sound.next (hr : r.Sound source) (hlt : r.offset < source.length) :
    ∃ r', r.next? source = some r' ∧ Next source r r' := by
  obtain ⟨ahead, hahead⟩ := hr.ahead
  obtain ⟨m, hlex, hfits⟩ := exists_mark ahead hlt
  rw [← hahead] at hlex hfits
  have hflushed := hr.nested_flushed
  rw [next?, hlex]
  simp only [Option.bind_eq_bind, Option.bind_some]
  cases hfound : m.found with
  | text piece => exact ⟨_, rfl, .text hlex hfits hfound⟩
  | token t =>
      cases t with
      | text o s =>
          have hsound := hfits.sound
          rw [hfound] at hsound
          exact hsound.elim
      | interpolation o s =>
          have hnested := (nested_interpolation o s _ hflushed).1
          exact ⟨_, rfl, .token hlex hfits hfound nofun hnested (Nat.le_succ _)⟩
      | opening o name attrs problem selfClosing =>
          have hnested := nested_opening o name attrs problem selfClosing _ hflushed
          refine ⟨_, rfl, .token hlex hfits hfound nofun hnested ?_⟩
          split
          · exact Nat.le_succ _
          · exact Nat.le_refl _
      | closing o name malformed =>
          obtain ⟨st, done, hanswer, hanswered⟩ := answer?_spec hflushed o name malformed
          dsimp only
          rw [hanswer]
          exact ⟨_, rfl, .closing hlex hfits hfound hanswered⟩

theorem Next.sound (h : Next source r r') (hr : r.Sound source) (hgo : r.built.aborted = false) :
    r'.Sound source := by
  cases h with
  | @text m piece hlex hfits hfound =>
      refine ⟨hfits.le, hfits.ahead, hr.nested, fun o s heq => ⟨hgo, ?_⟩⟩
      have hpiece := hfits.ne_nil hfound
      have hs : s = (r.write piece).2 := by rw [Option.some.inj heq]
      rw [hs, write]
      split
      · exact hpiece
      · simp [hpiece]
  | token hlex hfits hfound hclosing hnested hlen =>
      refine ⟨hfits.le, hfits.ahead, ?_, nofun⟩
      rw [names, hnested.names]
      exact hnested
  | @closing m offset name malformed done st hlex hfits hfound hanswer =>
      have hst : Nested source (st.frames.map (·.name)) st := by
        cases hanswer with
        | closed hnames hst hstep => rwa [hst.names]
        | unknown hname hst hstep => rwa [hst.names]
        | left hnames hne hmem hst hstep => rwa [hst.names]
      refine ⟨?_, hfits.ahead, hst, nofun⟩
      cases done with
      | true => exact hfits.le
      | false => exact hr.le

theorem Next.left_lt (h : Next source r r') : r'.left source < r.left source := by
  cases h with
  | text hlex hfits hfound =>
      have hlt := hfits.lt
      have hle := hfits.le
      simp only [left, names]
      omega
  | token hlex hfits hfound hclosing hnested hlen =>
      have hlt := hfits.lt
      have hle := hfits.le
      simp only [left]
      rw [names, hnested.names]
      omega
  | closing hlex hfits hfound hanswer =>
      have hlt := hfits.lt
      have hle := hfits.le
      simp only [left]
      cases hanswer with
      | closed hnames hst hstep =>
          rw [names, hst.names, hnames, List.length_cons]
          simp only [if_true]
          omega
      | unknown hname hst hstep =>
          rw [names, hst.names]
          simp only [if_true]
          omega
      | left hnames hne hmem hst hstep =>
          rw [names, hst.names, hnames, List.length_cons]
          simp only [Bool.false_eq_true, if_false]
          omega

/-- The tokens from a place on that are not a text start with the pending one. -/
theorem Sound.outcome_token (hr : r.Sound source) (hgo : r.built.aborted = false) {t : Token}
    {ts : List Token} (ht : ∀ o s, t ≠ .text o s)
    (hts : lexFrom r.raw r.offset (source.drop r.offset) = t :: ts) :
    r.outcome source = if ((step t).run r.flushed).2.aborted then ((step t).run r.flushed).2
      else ((run ts).run ((step t).run r.flushed).2).2 := by
  have hrun : ((run (r.tokens source)).run r.built).2 = ((run (t :: ts)).run r.flushed).2 := by
    rw [tokens, flushed, hts]
    cases hpending : r.pending with
    | none => rfl
    | some pending =>
        obtain ⟨o, s⟩ := pending
        obtain ⟨-, hs⟩ := hr.pending o s hpending
        have hcons : consText o s (t :: ts) = .text o s :: t :: ts := by
          cases t with
          | text o' s' => exact absurd rfl (ht o' s')
          | _ => simp [consText, hs]
        dsimp only
        rw [hcons, run_cons, aborted_step_text, hgo]
        rfl
  rw [outcome, hgo, hrun, run_cons]
  rfl

theorem Next.outcome (h : Next source r r') (hr : r.Sound source) (hgo : r.built.aborted = false) :
    r'.outcome source = r.outcome source := by
  cases h with
  | @text m piece hlex hfits hfound =>
      have htokens := hfits.tokens
      rw [hfound] at htokens
      rw [Cursor.outcome, Cursor.outcome, hgo, tokens, tokens, htokens, write]
      simp only [Found.before]
      cases hpending : r.pending with
      | none => rfl
      | some pending =>
          dsimp only
          rw [consText_consText (hfits.ne_nil hfound)]
  | @token m t names hlex hfits hfound hclosing hnested hlen =>
      have htokens := hfits.tokens
      have hsound := hfits.sound
      rw [hfound] at htokens hsound
      rw [hr.outcome_token hgo (fun o s heq => by rw [heq] at hsound; exact hsound) htokens]
      rfl
  | @closing m offset name malformed done st hlex hfits hfound hanswer =>
      have htokens := hfits.tokens
      rw [hfound] at htokens
      rw [hr.outcome_token hgo (by simp) htokens]
      cases hanswer with
      | closed hnames hst hstep =>
          rw [hstep]
          rfl
      | unknown hname hst hstep =>
          rw [hstep]
          rfl
      | left hnames hne hmem hst hstep =>
          have hagain := (hfits.fits_again hfound).tokens
          rw [hfound] at hagain
          rw [hstep, Cursor.outcome, tokens]
          simp only [Bool.false_eq_true, if_false, hagain]
          cases haborted : st.aborted with
          | true => simp [haborted]
          | false =>
              simp only [Bool.false_eq_true, if_false]
              exact run_cons _ _ _

/-- A closing tag of some name stands at a place in the source. -/
def AtClosing (source : Bytes) (name : Bytes) (r : Cursor) : Prop :=
  r.offset < source.length ∧ ∃ m offset malformed, lexAt? source r.raw r.offset = some m ∧
    m.found = .token (.closing offset name malformed)

/-- An iteration goes on in the source, or it closes the innermost element and leaves a closing tag
that names one around it. -/
theorem Next.moves (h : Next source r r') :
    r.offset < r'.offset ∨ r'.offset = r.offset ∧ ∃ inner name, r.names = inner :: r'.names ∧
      inner ≠ name ∧ name ∈ r'.names ∧ r'.AtClosing source name := by
  cases h with
  | text hlex hfits hfound => exact Or.inl hfits.lt
  | token hlex hfits hfound hclosing hnested hlen => exact Or.inl hfits.lt
  | @closing m offset name malformed done st hlex hfits hfound hanswer =>
      cases hanswer with
      | closed hnames hst hstep => exact Or.inl hfits.lt
      | unknown hname hst hstep => exact Or.inl hfits.lt
      | @left inner rest hnames hne hmem hst hstep =>
          have hrest := hst.names
          have hlt := Nat.lt_of_lt_of_le hfits.lt hfits.le
          subst hrest
          exact Or.inr ⟨rfl, inner, name, hnames, hne, hmem, hlt, m, offset, malformed,
            hfits.again offset name malformed hfound, hfound⟩

/-- A closing tag of an open element closes the innermost one, which it may name. -/
theorem Next.closes {name : Bytes} (h : Next source r r') (hat : r.AtClosing source name)
    (hmem : name ∈ r.names) :
    r.offset < r'.offset ∧ r.names = name :: r'.names ∨
      r'.offset = r.offset ∧ r'.AtClosing source name ∧
        ∃ inner, r.names = inner :: r'.names ∧ inner ≠ name ∧ name ∈ r'.names := by
  obtain ⟨hlt, m', offset', malformed', hlex', hfound'⟩ := hat
  cases h with
  | text hlex hfits hfound =>
      rw [hlex'] at hlex
      cases hlex
      rw [hfound'] at hfound
      cases hfound
  | token hlex hfits hfound hclosing hnested hlen =>
      rw [hlex'] at hlex
      cases hlex
      rw [hfound'] at hfound
      cases hfound
      exact absurd rfl (hclosing _ _ _)
  | @closing m offset name malformed done st hlex hfits hfound hanswer =>
      rw [hlex'] at hlex
      cases hlex
      rw [hfound'] at hfound
      cases hfound
      cases hanswer with
      | closed hnames hst hstep =>
          have hrest := hst.names
          subst hrest
          exact Or.inl ⟨hfits.lt, hnames⟩
      | unknown hname hst hstep => exact absurd hmem hname
      | @left inner rest hnames hne hmem hst hstep =>
          have hrest := hst.names
          subst hrest
          have hagain := hfits.again _ _ _ hfound'
          exact Or.inr ⟨rfl, ⟨hlt, m', _, _, hagain, hfound'⟩, inner, hnames, hne, hmem⟩

/-! ## The loop -/

/-- The loop from a place on, in some number of iterations. -/
inductive Loop (source : Bytes) : Nat → Cursor → Cursor → Prop where
  | ended {r : Cursor} (hr : r.Sound source) (hended : r.Ended source) : Loop source 0 r r
  | next {n : Nat} {r r' last : Cursor} (hr : r.Sound source) (hgo : ¬ r.Ended source)
      (hsome : r.next? source = some r') (hnext : Next source r r')
      (hloop : Loop source n r' last) : Loop source (n + 1) r last

theorem not_ended_iff : ¬ r.Ended source ↔ r.built.aborted = false ∧ r.offset < source.length := by
  simp [Ended]

theorem exists_loop (hr : r.Sound source) :
    ∃ n last, n ≤ r.left source ∧ Loop source n r last ∧
      last.outcome source = r.outcome source := by
  generalize hleft : r.left source = left
  induction left using Nat.strongRecOn generalizing r with
  | ind left ih =>
      by_cases hended : r.Ended source
      · exact ⟨0, r, Nat.zero_le _, .ended hr hended, rfl⟩
      · obtain ⟨hgo, hlt⟩ := not_ended_iff.1 hended
        obtain ⟨r', hsome, hnext⟩ := hr.next hlt
        have hless := hnext.left_lt
        obtain ⟨n, last, hn, hloop, houtcome⟩ :=
          ih (r'.left source) (hleft ▸ hless) (hnext.sound hr hgo) rfl
        refine ⟨n + 1, last, by omega, .next hr hended hsome hnext hloop, ?_⟩
        rw [houtcome, hnext.outcome hr hgo]

theorem Loop.sound {n : Nat} (h : Loop source n r r') : r.Sound source := by
  cases h with
  | ended hr hended => exact hr
  | next hr hgo hsome hnext hloop => exact hr

theorem Loop.last {n : Nat} (h : Loop source n r r') :
    iterate? source n r = some r' ∧ r'.Sound source ∧ r'.Ended source := by
  induction h with
  | ended hr hended => exact ⟨rfl, hr, hended⟩
  | next hr hgo hsome hnext hloop ih =>
      rw [iterate?, hsome]
      exact ih

/-- A place that the loop comes by, and the rest of the loop from there. -/
theorem Loop.drop {n k : Nat} {last : Cursor} (h : Loop source n r last) (hk : k ≤ n) :
    ∃ q, iterate? source k r = some q ∧ Loop source (n - k) q last := by
  induction k generalizing n r with
  | zero => exact ⟨r, rfl, h⟩
  | succ k ih =>
      cases h with
      | ended hr hended => omega
      | @next n _ r' _ hr hgo hsome hnext hloop =>
          rw [iterate?, hsome, Nat.succ_sub_succ]
          exact ih hloop (by omega)

/-- A closing tag that an open element waits for is taken by that element, unless the source is
given up before. -/
theorem Loop.taken {n : Nat} {last : Cursor} {name : Bytes} (h : Loop source n r last)
    (hat : r.AtClosing source name) (hmem : name ∈ r.names) :
    ∃ j ≤ n, ∃ q, iterate? source j r = some q ∧ (q.built.aborted = true ∨
      r.offset < q.offset ∧ q.names = (r.names.dropWhile (· != name)).tail) := by
  induction h with
  | @ended r hr hended =>
      have haborted := hended.resolve_right (Nat.not_le.2 hat.1)
      exact ⟨0, Nat.le_refl 0, r, rfl, Or.inl haborted⟩
  | @next n r r' last hr hgo hsome hnext hloop ih =>
      rcases hnext.closes hat hmem with ⟨hlt, hnames⟩ | ⟨hoffset, hat', inner, hnames, hne, hmem'⟩
      · refine ⟨1, by omega, r', by rw [iterate?, hsome]; rfl, Or.inr ⟨hlt, ?_⟩⟩
        rw [hnames]
        simp
      · obtain ⟨j, hj, q, hq, htaken⟩ := ih hat' hmem'
        refine ⟨j + 1, by omega, q, by rw [iterate?, hsome]; exact hq, ?_⟩
        rw [hnames, ← hoffset, List.dropWhile_cons_of_pos (by simpa using hne)]
        exact htaken

theorem Sound.flushed_eq (hr : r.Sound source) (hended : r.Ended source) :
    r.flushed = r.outcome source := by
  rw [outcome, flushed]
  cases haborted : r.built.aborted with
  | true =>
      cases hpending : r.pending with
      | none => rfl
      | some pending =>
          have hgo := (hr.pending pending.1 pending.2 hpending).1
          rw [haborted] at hgo
          cases hgo
  | false =>
      have hend := hended.resolve_left (by simp [haborted])
      rw [tokens, List.drop_eq_nil_of_le hend, lexFrom]
      cases hpending : r.pending with
      | none => rfl
      | some pending =>
          obtain ⟨o, s⟩ := pending
          have hs := (hr.pending o s hpending).2
          have htokens : consText o s [] = [.text o s] := by simp [consText, hs]
          dsimp only
          rw [htokens, run_cons, aborted_step_text, haborted]
          rfl

theorem sound_start (file source : Bytes) : (start file source).Sound source where
  le := Nat.zero_le _
  ahead := ⟨none, rfl⟩
  nested := ⟨rfl, rfl, nofun⟩
  pending := nofun

theorem outcome_start (file source : Bytes) :
    (start file source).outcome source = afterTokens file source := rfl

/-- An iteration leaves a closing tag for an element around the innermost one, which is closed.
Within some number of further iterations the element that the tag names is closed, and the reading
is behind the tag, unless the source was given up. -/
def Returns (source : Bytes) (rounds : Nat) (r r' : Cursor) : Prop :=
  r'.offset = r.offset ∧ ∃ inner name, r.names = inner :: r'.names ∧ inner ≠ name ∧
    name ∈ r'.names ∧ r'.AtClosing source name ∧
      ∃ j ≤ rounds, ∃ q, iterate? source j r' = some q ∧ (q.built.aborted = true ∨
        r.offset < q.offset ∧ q.names = (r'.names.dropWhile (· != name)).tail)

theorem iterate?_succ (source : Bytes) (k : Nat) (r : Cursor) :
    iterate? source (k + 1) r = iterate? source k r >>= (·.next? source) := by
  induction k generalizing r with
  | zero =>
      cases hnext : r.next? source with
      | none => simp [iterate?, hnext]
      | some r' => simp [iterate?, hnext]
  | succ k ih =>
      rw [iterate?, iterate?]
      cases r.next? source with
      | none => rfl
      | some r' => exact ih r'

/-- Each iteration of a loop has a result inside the source, and goes on in it or returns. -/
theorem Loop.progress {n k : Nat} {last : Cursor} (h : Loop source n r last) (hk : k < n) :
    ∃ q q', iterate? source k r = some q ∧ ¬ q.Ended source ∧ iterate? source (k + 1) r = some q' ∧
      q'.offset ≤ source.length ∧ (q.offset < q'.offset ∨ Returns source (n - (k + 1)) q q') := by
  obtain ⟨q, hq, hloop⟩ := h.drop (Nat.le_of_lt hk)
  rw [show n - k = n - (k + 1) + 1 by omega] at hloop
  cases hloop with
  | @next _ _ q' _ hr hgo hsome hnext hrest =>
      have hq' : iterate? source (k + 1) r = some q' := by
        rw [iterate?_succ, hq]
        exact hsome
      refine ⟨q, q', hq, hgo, hq', hrest.sound.le, ?_⟩
      rcases hnext.moves with hlt | ⟨hoffset, inner, name, hnames, hne, hmem, hat⟩
      · exact Or.inl hlt
      · obtain ⟨j, hj, p, hp, htaken⟩ := hrest.taken hat hmem
        rw [hoffset] at htaken
        exact Or.inr ⟨hoffset, inner, name, hnames, hne, hmem, hat, j, hj, p, hp, htaken⟩

/-- The closing tag stays where it is until the element inside is closed. -/
example : [1, 2, 3, 4].map (fun n => (iterate? "<A><B></A>" n (start "" "<A><B></A>")).map
    fun r => (r.offset, r.names.length)) =
      [some (3, 1), some (6, 2), some (6, 1), some (10, 0)] := by
  decide

theorem Loop.finish {n : Nat} {last : Cursor} (h : Loop source n r last) :
    last.finish? = some ((closeAll ((last.outcome source).frames.length + 1)).run
      (last.outcome source)).2 := by
  obtain ⟨-, hlast, hended⟩ := h.last
  rw [finish?, closeAll?_eq hlast.nested_flushed, hlast.flushed_eq hended]

end Cursor

/-- The template that a reading ends with, and the faults in the order they were found. -/
def Builder.template (file path : Bytes) (st : Builder) : Template × List (Pos × Fault) :=
  (⟨path, file, (if st.hasRoot then
      [⟨Name.ofPath path, true, .start, st.root.decls, st.root.nodes, file, path⟩] else []) ++
    st.defs.map ({ · with template := path })⟩, st.faults.reverse)

/-- A source of any bytes is read in a loop of at most twice as many iterations as it has bytes.  No
byte and no part is looked up beside the source, beside the nodes of a conditional or beside a quoted
value.  Each iteration goes on in the source, or leaves a closing tag to an element around the
innermost one, which takes it. -/
theorem parse_in_bounds (file path source : Bytes) :
    (∃ n ≤ 2 * source.length, ∃ last,
      Cursor.iterate? source n (.start file source) = some last ∧ last.Ended source ∧
      last.finish?.map (·.template file path) = some (parse file path source) ∧
      ∀ k < n, ∃ r r', Cursor.iterate? source k (.start file source) = some r ∧ ¬ r.Ended source ∧
        Cursor.iterate? source (k + 1) (.start file source) = some r' ∧
        r'.offset ≤ source.length ∧
        (r.offset < r'.offset ∨ Cursor.Returns source (n - (k + 1)) r r')) ∧
    ∀ value, piecesFrom? value (value.length + 1) 0 = some (splitText 0 value) := by
  have hstart := Cursor.sound_start file source
  constructor
  · obtain ⟨n, last, hn, hloop, houtcome⟩ := Cursor.exists_loop hstart
    obtain ⟨hlast, -, hended⟩ := hloop.last
    refine ⟨n, hn, last, hlast, hended, ?_, fun k hk => hloop.progress hk⟩
    rw [hloop.finish, houtcome, Cursor.outcome_start]
    rfl
  · intro value
    exact piecesFrom?_eq (Nat.lt_succ_self _)

end TagLoom.Template

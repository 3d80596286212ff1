import TagLoom.Proofs.Markup.Step
import TagLoom.Proofs.Unicode.Lower

/-!
# Text cut in two

Advancing over a text in two pieces reaches the place that advancing over the whole text
reaches, unless the first piece ends inside something the scanner reads as one.  `cut?` names
what a text ends inside of: the opening of a tag or a comment, the end of a comment, the end
tag of raw text, or an attribute name.  Only an attribute name goes on growing after the cut,
and only by ASCII bytes.
-/

namespace TagLoom.Markup

/-- What a text can end inside of. -/
inductive Cut where
  /-- The mark that opens a tag or a comment, or the element name after it. -/
  | opening
  | commentEnd
  /-- The end tag of a raw-text element. -/
  | rawEnd
  | attrName
deriving DecidableEq

/-- Whether the bytes after a `<` in text leave open what it starts. -/
@[grind =] def leavesOpen : Bytes → Bool
  | [] => true
  | d :: after =>
      if d == '/'.toUInt8 then
        match after with
        | [] => true
        | l :: _ => Bytes.isLetter l && after.all (!endsElemName ·)
      else if d == '!'.toUInt8 then after == [] || after == ['-'.toUInt8]
      else Bytes.isLetter d && (d :: after).all (!endsElemName ·)

/-- Whether the bytes after a `<` in raw text may become the end tag of the element. -/
def leavesRawOpen (elem : Bytes) : Bytes → Bool
  | [] => true
  | d :: after =>
      d == '/'.toUInt8 && after.length < elem.length &&
        (Bytes.lowerAscii after).isPrefixOf elem

/-- Whether a byte inside a tag starts an attribute name that takes in more bytes. -/
def startsAttr (c : UInt8) : Bool := !endsAttrName c

/-- What one step at the start of a text reads to the end of it without coming to an end. -/
@[grind =] def openStep? (m : Markup) (c : UInt8) (rest : Bytes) : Option Cut :=
  match m with
  | .text => if c == '<'.toUInt8 && leavesOpen rest then some .opening else none
  | .comment =>
      if c == '-'.toUInt8 && (rest == [] || rest == ['-'.toUInt8]) then some .commentEnd else none
  | .rawText e => if c == '<'.toUInt8 && leavesRawOpen e rest then some .rawEnd else none
  | .tag _ | .afterAttrName _ _ =>
      if startsAttr c && rest.all startsAttr then some .attrName else none
  | .attrName _ _ | .beforeValue _ _ | .quotedValue _ _ _ | .unquotedValue _ _ => none

/-- What a text ends inside of; `none` when it ends between two steps. -/
def cut? (m : Markup) : Bytes → Option Cut
  | [] => none
  | c :: rest =>
      match openStep? m c rest with
      | some k => some k
      | none => cut? (step m c rest).1 (rest.drop (step m c rest).2)
  termination_by s => s.length
  decreasing_by simp only [List.length_drop, List.length_cons]; omega

@[simp] theorem cut?_nil (m : Markup) : cut? m [] = none := by
  rw [cut?]

theorem cut?_cons (m : Markup) (c : UInt8) (rest : Bytes) :
    cut? m (c :: rest) =
      match openStep? m c rest with
      | some k => some k
      | none => cut? (step m c rest).1 (rest.drop (step m c rest).2) := by
  rw [cut?]

/-! ## Steps that more text does not change -/

theorem takeWhile_append_of_not_all {p : UInt8 → Bool} {s : Bytes} (b : Bytes)
    (h : s.all p = false) : (s ++ b).takeWhile p = s.takeWhile p := by
  induction s with
  | nil => simp at h
  | cons c s ih =>
      cases hc : p c with
      | false => simp [hc]
      | true =>
          have hs : s.all p = false := by simpa [hc] using h
          simp [hc, ih hs]

theorem takeWhile_all {p : UInt8 → Bool} {s : Bytes} (h : s.all p = true) :
    s.takeWhile p = s := by
  induction s with
  | nil => rfl
  | cons c s ih =>
      have hc : p c = true ∧ s.all p = true := by simpa using h
      simp [hc.1, ih hc.2]

theorem leavesOpen_slash (after : Bytes) :
    leavesOpen ('/'.toUInt8 :: after) =
      match after with
      | [] => true
      | l :: _ => Bytes.isLetter l && after.all (!endsElemName ·) := by
  cases after <;> simp [leavesOpen]

theorem leavesOpen_bang (after : Bytes) :
    leavesOpen ('!'.toUInt8 :: after) = (after == [] || after == ['-'.toUInt8]) := by
  have hne : ('!'.toUInt8 == '/'.toUInt8) = false := by decide
  simp [leavesOpen, hne]

theorem leavesOpen_name {d : UInt8} (after : Bytes) (hbang : d ≠ '!'.toUInt8)
    (hslash : d ≠ '/'.toUInt8) :
    leavesOpen (d :: after) = (Bytes.isLetter d && (d :: after).all (!endsElemName ·)) := by
  simp [leavesOpen, hbang, hslash]

private theorem step_slash_append (after b : Bytes)
    (h : leavesOpen ('/'.toUInt8 :: after) = false) :
    step .text '<'.toUInt8 ('/'.toUInt8 :: (after ++ b)) =
      step .text '<'.toUInt8 ('/'.toUInt8 :: after) := by
  rw [leavesOpen_slash] at h
  cases after with
  | nil => simp at h
  | cons l more =>
      rw [step_text_slash, step_text_slash]
      cases hl : Bytes.isLetter l with
      | false => simp [hl]
      | true =>
          have hall : (l :: more).all (!endsElemName ·) = false := by simpa [hl] using h
          rw [takeWhile_append_of_not_all b hall]
          simp [hl]

private theorem step_bang_append (after b : Bytes)
    (h : leavesOpen ('!'.toUInt8 :: after) = false) :
    step .text '<'.toUInt8 ('!'.toUInt8 :: (after ++ b)) =
      step .text '<'.toUInt8 ('!'.toUInt8 :: after) := by
  rw [leavesOpen_bang] at h
  have hdashes : Bytes.ofString "--" = ['-'.toUInt8, '-'.toUInt8] := by decide
  rw [step_text_bang, step_text_bang]
  rcases after with _ | ⟨x, _ | ⟨y, more⟩⟩
  · simp at h
  · have hne : x ≠ '-'.toUInt8 := by simpa using h
    have hx : ('-'.toUInt8 == x) = false := beq_eq_false_iff_ne.2 hne.symm
    simp [Bytes.startsWith, hdashes, List.isPrefixOf, hx]
  · simp [Bytes.startsWith, hdashes, List.isPrefixOf]

private theorem step_name_append {d : UInt8} (after b : Bytes) (hbang : d ≠ '!'.toUInt8)
    (hslash : d ≠ '/'.toUInt8) (h : leavesOpen (d :: after) = false) :
    step .text '<'.toUInt8 (d :: (after ++ b)) = step .text '<'.toUInt8 (d :: after) := by
  rw [leavesOpen_name after hbang hslash] at h
  rw [step_text_name _ hbang hslash, step_text_name _ hbang hslash]
  cases hd : Bytes.isLetter d with
  | false => simp
  | true =>
      have hall : (d :: after).all (!endsElemName ·) = false := by simpa [hd] using h
      rw [← List.cons_append, takeWhile_append_of_not_all b hall]

theorem step_text_append {c : UInt8} {rest : Bytes} (b : Bytes)
    (h : openStep? .text c rest = none) :
    step .text c (rest ++ b) = step .text c rest := by
  by_cases hc : c = '<'.toUInt8
  · subst hc
    have hopen : leavesOpen rest = false := by simpa [openStep?] using h
    cases rest with
    | nil => simp [leavesOpen] at hopen
    | cons d after =>
        by_cases hslash : d = '/'.toUInt8
        · subst hslash
          exact step_slash_append after b hopen
        by_cases hbang : d = '!'.toUInt8
        · subst hbang
          exact step_bang_append after b hopen
        exact step_name_append after b hbang hslash hopen
  · rw [step_text_other _ hc, step_text_other _ hc]

theorem step_comment_append {c : UInt8} {rest : Bytes} (b : Bytes)
    (h : openStep? .comment c rest = none) :
    step .comment c (rest ++ b) = step .comment c rest := by
  by_cases hc : c = '-'.toUInt8
  · subst hc
    have hclose : Bytes.ofString "->" = ['-'.toUInt8, '>'.toUInt8] := by decide
    have hopen : rest ≠ [] ∧ rest ≠ ['-'.toUInt8] := by simpa [openStep?] using h
    rw [step_comment_dash, step_comment_dash]
    rcases rest with _ | ⟨x, _ | ⟨y, more⟩⟩
    · simp at hopen
    · have hne : x ≠ '-'.toUInt8 := by simpa using hopen
      have hx : ('-'.toUInt8 == x) = false := beq_eq_false_iff_ne.2 hne.symm
      simp [Bytes.startsWith, hclose, List.isPrefixOf, hx]
    · simp [Bytes.startsWith, hclose, List.isPrefixOf]
  · rw [step_comment_other _ hc, step_comment_other _ hc]

/-- A text that a raw-text end tag does not fit into yet is not changed by what cannot be the
rest of one. -/
private theorem lowerAscii_take_append_ne {e after : Bytes} (b : Bytes)
    (h : after.length < e.length → (Bytes.lowerAscii after).isPrefixOf e = false) :
    Bytes.lowerAscii ((after ++ b).take e.length) = e ↔
      Bytes.lowerAscii (after.take e.length) = e := by
  by_cases hlen : after.length < e.length
  · have hno := h hlen
    constructor
    · intro heq
      have hpre : Bytes.lowerAscii after <+: e := by
        rw [← heq]
        have htake : (after ++ b).take e.length = after ++ b.take (e.length - after.length) := by
          rw [List.take_append, List.take_of_length_le (Nat.le_of_lt hlen)]
        rw [htake, Bytes.lowerAscii, Bytes.lowerAscii, List.map_append]
        exact List.prefix_append _ _
      rw [← List.isPrefixOf_iff_prefix, hno] at hpre
      contradiction
    · intro heq
      have hlength := congrArg List.length heq
      simp [Bytes.lowerAscii] at hlength
      omega
  · rw [List.take_append_of_le_length (Nat.le_of_not_lt hlen)]

theorem step_rawText_append (e : Bytes) {c : UInt8} {rest : Bytes} (b : Bytes)
    (h : openStep? (.rawText e) c rest = none) :
    step (.rawText e) c (rest ++ b) = step (.rawText e) c rest := by
  by_cases hc : c = '<'.toUInt8
  · subst hc
    have hopen : leavesRawOpen e rest = false := by simpa [openStep?] using h
    cases rest with
    | nil => simp [leavesRawOpen] at hopen
    | cons d after =>
        rw [List.cons_append, step_rawText_lt, step_rawText_lt]
        by_cases hd : d = '/'.toUInt8
        · subst hd
          have hno : after.length < e.length →
              (Bytes.lowerAscii after).isPrefixOf e = false := by
            intro hlen
            simpa [leavesRawOpen, hlen] using hopen
          simp only [lowerAscii_take_append_ne b hno]
        · simp [hd]
  · rw [step_rawText_other _ _ hc, step_rawText_other _ _ hc]

theorem step_append (m : Markup) {c : UInt8} {rest : Bytes} (b : Bytes)
    (h : openStep? m c rest = none) : step m c (rest ++ b) = step m c rest := by
  cases m with
  | text => exact step_text_append b h
  | comment => exact step_comment_append b h
  | rawText e => exact step_rawText_append e b h
  | tag t =>
      cases hc : endsAttrName c with
      | true => exact step_tag_other t _ _ hc
      | false =>
          have hall : rest.all (!endsAttrName ·) = false := by
            simpa [openStep?, startsAttr, hc] using h
          rw [step_tag_attr t _ hc, step_tag_attr t _ hc, takeWhile_append_of_not_all b hall]
  | afterAttrName t a =>
      cases hc : endsAttrName c with
      | true => exact step_afterAttrName_other t a _ _ hc
      | false =>
          have hall : rest.all (!endsAttrName ·) = false := by
            simpa [openStep?, startsAttr, hc] using h
          rw [step_afterAttrName_attr t a _ hc, step_afterAttrName_attr t a _ hc,
            takeWhile_append_of_not_all b hall]
  | attrName t a => rfl
  | beforeValue t a => rfl
  | quotedValue t a q => rfl
  | unquotedValue t a => rfl

/-! ## Texts that end between two steps -/

private theorem length_takeWhile_le (p : UInt8 → Bool) (s : Bytes) :
    (s.takeWhile p).length ≤ s.length :=
  (List.takeWhile_sublist p).length_le

private theorem step_text_length_le (c : UInt8) (rest : Bytes) :
    (step .text c rest).2 ≤ rest.length := by
  by_cases hc : c = '<'.toUInt8
  · subst hc
    cases rest with
    | nil => simp
    | cons d after =>
        by_cases hslash : d = '/'.toUInt8
        · subst hslash
          have hname := length_takeWhile_le (!endsElemName ·) after
          rw [step_text_slash]
          split
          · dsimp only
            rw [List.length_cons, Nat.add_comm]
            exact Nat.succ_le_succ hname
          · exact Nat.zero_le _
        by_cases hbang : d = '!'.toUInt8
        · subst hbang
          rw [step_text_bang]
          split
          · rename_i hstart
            have hprefix : Bytes.ofString "--" <+: after := by
              simpa [Bytes.startsWith] using hstart
            have hlen : 2 ≤ after.length := hprefix.length_le
            simpa using hlen
          · simp
        · have hname := length_takeWhile_le (!endsElemName ·) (d :: after)
          rw [step_text_name _ hbang hslash]
          split
          · exact hname
          · simp
  · simp [step_text_other _ hc]

private theorem step_comment_length_le (c : UInt8) (rest : Bytes) :
    (step .comment c rest).2 ≤ rest.length := by
  by_cases hc : c = '-'.toUInt8
  · subst hc
    rw [step_comment_dash]
    split
    · rename_i hstart
      have hprefix : Bytes.ofString "->" <+: rest := by
        simpa [Bytes.startsWith] using hstart
      exact hprefix.length_le
    · simp
  · simp [step_comment_other _ hc]

private theorem step_rawText_length_le (e : Bytes) (c : UInt8) (rest : Bytes) :
    (step (.rawText e) c rest).2 ≤ rest.length := by
  by_cases hc : c = '<'.toUInt8
  · subst hc
    cases rest with
    | nil => simp
    | cons d after =>
        rw [step_rawText_lt]
        split
        · rename_i hmatch
          have hlength := congrArg List.length hmatch.2
          simp [Bytes.lowerAscii] at hlength ⊢
          omega
        · simp
  · simp [step_rawText_other _ _ hc]

private theorem step_tag_length_le (t : OpenTag) (c : UInt8) (rest : Bytes) :
    (step (.tag t) c rest).2 ≤ rest.length := by
  cases hc : endsAttrName c with
  | true =>
      simp [step_tag_ends t rest hc]
  | false =>
      rw [step_tag_attr t _ hc]
      exact length_takeWhile_le _ _

private theorem step_afterAttrName_length_le (t : OpenTag) (a : Bytes) (c : UInt8) (rest : Bytes) :
    (step (.afterAttrName t a) c rest).2 ≤ rest.length := by
  cases hc : endsAttrName c with
  | true =>
      simp [step_afterAttrName_ends t a rest hc]
  | false =>
      rw [step_afterAttrName_attr t a _ hc]
      exact length_takeWhile_le _ _

theorem step_length_le (m : Markup) (c : UInt8) (rest : Bytes) :
    (step m c rest).2 ≤ rest.length := by
  cases m with
  | text => exact step_text_length_le c rest
  | comment => exact step_comment_length_le c rest
  | rawText e => exact step_rawText_length_le e c rest
  | tag t => exact step_tag_length_le t c rest
  | afterAttrName t a => exact step_afterAttrName_length_le t a c rest
  | attrName t a => grind [step]
  | beforeValue t a => grind [step]
  | quotedValue t a q => grind [step]
  | unquotedValue t a => grind [step]

theorem advance_append_of_openStep?_eq_none (m : Markup) {c : UInt8} {rest : Bytes} (b : Bytes)
    (h : openStep? m c rest = none) :
    advance m (c :: rest ++ b) =
      advance (step m c rest).1 (rest.drop (step m c rest).2 ++ b) := by
  rw [List.cons_append, advance_cons, step_append m b h,
    List.drop_append_of_le_length (step_length_le m c rest)]

theorem advance_append_of_cut?_eq_none {m : Markup} {a : Bytes} (b : Bytes)
    (h : cut? m a = none) : advance m (a ++ b) = advance (advance m a) b := by
  induction m, a using advance_induction with
  | nil m => simp
  | cons m c rest ih =>
      rw [cut?_cons] at h
      cases hopen : openStep? m c rest with
      | some k => simp [hopen] at h
      | none =>
          simp only [hopen] at h
          rw [advance_append_of_openStep?_eq_none m b hopen, advance_cons, ih h]

/-! ## The step a text ends inside of -/

/-- Raw text is that of an element with raw text. -/
def RawNamed (m : Markup) : Prop := ∀ e, m = .rawText e → isRawElem e = true

theorem rawNamed_afterTag (t : OpenTag) : RawNamed (afterTag t) := by
  intro e h
  unfold afterTag at h
  split at h
  · rename_i hraw
    cases h
    simpa using (Bool.and_eq_true_iff.1 hraw).2
  · cases h

theorem RawNamed.step {m : Markup} (h : RawNamed m) (c : UInt8) (rest : Bytes) :
    RawNamed (step m c rest).1 := by
  cases m with
  | rawText e =>
      simp only [Markup.step]
      split
      · simp [RawNamed]
      · exact h
  | _ =>
      simp only [Markup.step]
      repeat' split
      all_goals first
        | exact rawNamed_afterTag _
        | simp [RawNamed]

theorem RawNamed.advance {m : Markup} (h : RawNamed m) (s : Bytes) : RawNamed (advance m s) :=
  advance_keeps (fun _ c rest h => h.step c rest) h s

theorem rawNamed_foldl {m : Markup} (h : RawNamed m) (texts : List Bytes) :
    RawNamed (texts.foldl advance m) :=
  foldl_advance_keeps (fun _ c rest h => h.step c rest) h texts

/-- A text that is cut ends in one open step, which is advanced over with whatever follows. -/
theorem exists_openStep?_of_cut? {m : Markup} {a : Bytes} {k : Cut} (hm : RawNamed m)
    (h : cut? m a = some k) :
    ∃ m' c rest, openStep? m' c rest = some k ∧ RawNamed m' ∧
      ∀ b, advance m (a ++ b) = advance m' (c :: rest ++ b) := by
  induction m, a using advance_induction with
  | nil m => simp at h
  | cons m c rest ih =>
      rw [cut?_cons] at h
      cases hopen : openStep? m c rest with
      | some k' =>
          have hk : k' = k := by simpa [hopen] using h
          subst hk
          exact ⟨m, c, rest, hopen, hm, fun b => rfl⟩
      | none =>
          simp only [hopen] at h
          obtain ⟨m', c', rest', hstep, hm', hadv⟩ := ih (hm.step c rest) h
          refine ⟨m', c', rest', hstep, hm', fun b => ?_⟩
          rw [advance_append_of_openStep?_eq_none m b hopen, hadv b]

/-! ## Texts that end inside a step -/

theorem advance_text_of_notMem {s : Bytes} (h : '<'.toUInt8 ∉ s) : advance .text s = .text := by
  induction s with
  | nil => simp
  | cons c s ih =>
      have hc : c ≠ '<'.toUInt8 := fun heq => h (by simp [heq])
      rw [advance_cons, step_text_other _ hc]
      exact ih fun hmem => h (by simp [hmem])

theorem advance_rawText_append (e : Bytes) {s : Bytes} (h : '<'.toUInt8 ∉ s) (b : Bytes) :
    advance (.rawText e) (s ++ b) = advance (.rawText e) b := by
  induction s with
  | nil => simp
  | cons c s ih =>
      have hc : c ≠ '<'.toUInt8 := fun heq => h (by simp [heq])
      rw [List.cons_append, advance_cons, step_rawText_other _ _ hc]
      exact ih fun hmem => h (by simp [hmem])

theorem advance_rawText_of_notMem (e : Bytes) {s : Bytes} (h : '<'.toUInt8 ∉ s) :
    advance (.rawText e) s = .rawText e := by
  simpa using advance_rawText_append e h []

theorem advance_attrName_grow (t : OpenTag) (a : Bytes) {s : Bytes}
    (h : s.all (!endsAttrName ·) = true) (b : Bytes) :
    advance (.attrName t a) (s ++ b) = advance (.attrName t (a ++ s.flatMap attrByte)) b := by
  induction s generalizing a with
  | nil => simp
  | cons c s ih =>
      have hc : endsAttrName c = false ∧ s.all (!endsAttrName ·) = true := by simpa using h
      rw [List.cons_append, advance_cons, step_attrName_grow t a _ hc.1]
      simp [ih _ hc.2]

/-- The two ways over a text cut in two come to different places. -/
def Differs (m : Markup) (a b : Bytes) : Prop := advance (advance m a) b ≠ advance m (a ++ b)

private theorem differs_name {d : UInt8} {after : Bytes} (hbang : d ≠ '!'.toUInt8)
    (hslash : d ≠ '/'.toUInt8) (hletter : Bytes.isLetter d = true)
    (hall : (d :: after).all (!endsElemName ·) = true) :
    Differs .text ('<'.toUInt8 :: d :: after) (Bytes.ofString "x") := by
  have hx : Bytes.ofString "x" = ['x'.toUInt8] := by decide
  have hall' : ((d :: after) ++ ['x'.toUInt8]).all (!endsElemName ·) = true := by
    rw [List.all_append, hall]
    decide
  have hsplit : advance .text ('<'.toUInt8 :: d :: after) =
      .tag ⟨Unicode.lowerText (d :: after), false⟩ := by
    rw [advance_cons, step_text_name _ hbang hslash, if_pos hletter, takeWhile_all hall]
    simp
  have hwhole : advance .text ('<'.toUInt8 :: d :: after ++ ['x'.toUInt8]) =
      .tag ⟨Unicode.lowerText (d :: after ++ ['x'.toUInt8]), false⟩ := by
    rw [List.cons_append, List.cons_append, advance_cons, step_text_name _ hbang hslash,
      if_pos hletter, ← List.cons_append, takeWhile_all hall']
    simp
  rw [Differs, hx, hsplit, hwhole, advance_cons, step_tag_attr _ _ (by decide)]
  simp

private theorem differs_slash {l : UInt8} {more : Bytes} (hletter : Bytes.isLetter l = true)
    (hall : (l :: more).all (!endsElemName ·) = true) :
    Differs .text ('<'.toUInt8 :: '/'.toUInt8 :: l :: more) (Bytes.ofString "x") := by
  have hx : Bytes.ofString "x" = ['x'.toUInt8] := by decide
  have hall' : ((l :: more) ++ ['x'.toUInt8]).all (!endsElemName ·) = true := by
    rw [List.all_append, hall]
    decide
  have hsplit : advance .text ('<'.toUInt8 :: '/'.toUInt8 :: l :: more) =
      .tag ⟨Unicode.lowerText (l :: more), true⟩ := by
    rw [advance_cons, step_text_slash, takeWhile_all hall]
    simp [hletter, Nat.add_comm 1]
  have hwhole : advance .text ('<'.toUInt8 :: '/'.toUInt8 :: l :: more ++ ['x'.toUInt8]) =
      .tag ⟨Unicode.lowerText (l :: more ++ ['x'.toUInt8]), true⟩ := by
    rw [List.cons_append, List.cons_append, advance_cons, step_text_slash, takeWhile_all hall']
    simp [hletter, Nat.add_comm 1]
  rw [Differs, hx, hsplit, hwhole, advance_cons, step_tag_attr _ _ (by decide)]
  simp

/-- Marks whose first bytes alone are not read as marks. -/
private theorem differs_marks :
    (Differs .text ['<'.toUInt8] "a" ∧ Differs .text ['<'.toUInt8, '/'.toUInt8] "a") ∧
    (Differs .text ['<'.toUInt8, '!'.toUInt8] "--" ∧
      Differs .text ['<'.toUInt8, '!'.toUInt8, '-'.toUInt8] "-") ∧
    Differs .comment ['-'.toUInt8] "->" ∧ Differs .comment ['-'.toUInt8, '-'.toUInt8] ">" := by
  unfold Differs
  decide_cbv

private theorem exists_differs_opening {rest : Bytes} (h : leavesOpen rest = true) :
    ∃ b, Unicode.isAscii b = true ∧ Differs .text ('<'.toUInt8 :: rest) b := by
  obtain ⟨⟨hname, hslash⟩, ⟨hbang, hdash⟩, -⟩ := differs_marks
  cases rest with
  | nil => exact ⟨Bytes.ofString "a", by decide, hname⟩
  | cons d after =>
      by_cases hd : d = '/'.toUInt8
      · subst hd
        rw [leavesOpen_slash] at h
        cases after with
        | nil => exact ⟨Bytes.ofString "a", by decide, hslash⟩
        | cons l more =>
            have hname : Bytes.isLetter l = true ∧ (l :: more).all (!endsElemName ·) = true := by
              simpa using h
            exact ⟨Bytes.ofString "x", by decide, differs_slash hname.1 hname.2⟩
      by_cases hd' : d = '!'.toUInt8
      · subst hd'
        rw [leavesOpen_bang] at h
        have hafter : after = [] ∨ after = ['-'.toUInt8] := by simpa using h
        rcases hafter with rfl | rfl
        · exact ⟨Bytes.ofString "--", by decide, hbang⟩
        · exact ⟨Bytes.ofString "-", by decide, hdash⟩
      rw [leavesOpen_name after hd' hd] at h
      have hname : Bytes.isLetter d = true ∧ (d :: after).all (!endsElemName ·) = true := by
        simpa using h
      exact ⟨Bytes.ofString "x", by decide, differs_name hd' hd hname.1 hname.2⟩

private theorem exists_differs_commentEnd {rest : Bytes}
    (h : rest = [] ∨ rest = ['-'.toUInt8]) :
    ∃ b, Unicode.isAscii b = true ∧ Differs .comment ('-'.toUInt8 :: rest) b := by
  obtain ⟨-, -, hdash, hdashes⟩ := differs_marks
  rcases h with rfl | rfl
  · exact ⟨Bytes.ofString "->", by decide, hdash⟩
  · exact ⟨Bytes.ofString ">", by decide, hdashes⟩

theorem isLower_of_isRawElem {e : Bytes} (h : isRawElem e = true) :
    ∀ c ∈ e, Bytes.isLower c = true := by
  have hname : e = Bytes.ofString "script" ∨ e = Bytes.ofString "style" := by
    simpa [isRawElem] using h
  rcases hname with rfl | rfl <;> decide +kernel

private theorem isAscii_of_isLower {s : Bytes} (h : ∀ c ∈ s, Bytes.isLower c = true) :
    Unicode.isAscii s = true := by
  rw [Unicode.isAscii_iff]
  intro c hc
  have hlower := h c hc
  simp only [Bytes.isLower, Bool.and_eq_true, decide_eq_true_eq] at hlower
  exact UInt8.lt_of_le_of_lt hlower.2 (by decide)

theorem notMem_of_isLower {s : Bytes} (h : ∀ c ∈ s, Bytes.isLower c = true) :
    '<'.toUInt8 ∉ s := by
  intro hmem
  have hlower := h _ hmem
  revert hlower
  decide

theorem lowerAscii_of_isLower {s : Bytes} (h : ∀ c ∈ s, Bytes.isLower c = true) :
    Bytes.lowerAscii s = s := by
  have hid : s.map Bytes.lowerByte = s.map id :=
    List.map_congr_left fun c hc => by
      have hlower := h c hc
      have hupper : Bytes.isUpper c = false := by
        simp only [Bytes.isLower, Bytes.isUpper, Bool.and_eq_true, decide_eq_true_eq,
          Bool.and_eq_false_iff, decide_eq_false_iff_not] at hlower ⊢
        exact Or.inr fun hle => absurd (UInt8.le_trans hlower.1 hle) (by decide)
      simp [Bytes.lowerByte, hupper]
  simpa [Bytes.lowerAscii] using hid

theorem notMem_of_leavesRawOpen {e after : Bytes} (he : isRawElem e = true)
    (h : Bytes.lowerAscii after <+: e) : '<'.toUInt8 ∉ after := by
  intro hmem
  have hmem' : Bytes.lowerByte '<'.toUInt8 ∈ Bytes.lowerAscii after := List.mem_map_of_mem hmem
  have hsame : Bytes.lowerByte '<'.toUInt8 = '<'.toUInt8 := by decide
  rw [hsame] at hmem'
  exact notMem_of_isLower (isLower_of_isRawElem he) (h.subset hmem')

theorem advance_rawOpen {e rest : Bytes} (he : isRawElem e = true)
    (h : leavesRawOpen e rest = true) :
    advance (.rawText e) ('<'.toUInt8 :: rest) = .rawText e := by
  cases rest with
  | nil => rw [advance_cons, step_rawText_lt_nil]; simp
  | cons d after =>
      have hopen : (d = '/'.toUInt8 ∧ after.length < e.length) ∧
          Bytes.lowerAscii after <+: e := by
        simpa [leavesRawOpen] using h
      obtain ⟨⟨rfl, hlen⟩, hstart⟩ := hopen
      have hshort : Bytes.lowerAscii (after.take e.length) ≠ e := by
        intro heq
        have hlength := congrArg List.length heq
        simp [Bytes.lowerAscii] at hlength
        omega
      rw [advance_cons, step_rawText_lt, if_neg fun hmatch => hshort hmatch.2]
      refine advance_rawText_of_notMem e ?_
      simp only [List.drop_zero, List.mem_cons, not_or]
      exact ⟨by decide, notMem_of_leavesRawOpen he hstart⟩

private theorem advance_rawOpen_tail {e after tail : Bytes} (he : isRawElem e = true)
    (htail : Bytes.lowerAscii after ++ tail = e) :
    advance (.rawText e) ('<'.toUInt8 :: '/'.toUInt8 :: after ++ tail) = .tag ⟨e, true⟩ := by
  have hlower : Bytes.lowerAscii tail = tail :=
    lowerAscii_of_isLower fun c hc => isLower_of_isRawElem he c (by rw [← htail]; simp [hc])
  have hlength : (after ++ tail).length = e.length := by
    rw [← htail]
    simp [Bytes.lowerAscii]
  have hmatch : Bytes.lowerAscii ((after ++ tail).take e.length) = e := by
    rw [← hlength, List.take_length, Bytes.lowerAscii, List.map_append]
    exact (congrArg (Bytes.lowerAscii after ++ ·) hlower).trans htail
  rw [List.cons_append, List.cons_append, advance_cons, step_rawText_lt, if_pos ⟨rfl, hmatch⟩,
    List.drop_of_length_le (by simp only [List.length_cons]; omega), advance_nil]

theorem exists_advance_rawOpen {e rest : Bytes} (he : isRawElem e = true)
    (h : leavesRawOpen e rest = true) :
    ∃ b, Unicode.isAscii b = true ∧ '<'.toUInt8 ∉ b ∧
      advance (.rawText e) ('<'.toUInt8 :: rest ++ b) = .tag ⟨e, true⟩ := by
  have hlower := isLower_of_isRawElem he
  cases rest with
  | nil =>
      refine ⟨'/'.toUInt8 :: e, ?_, ?_, ?_⟩
      · have hslash : ('/'.toUInt8 : UInt8) < 0x80 := by decide
        simpa [Unicode.isAscii, hslash] using isAscii_of_isLower hlower
      · simpa using And.intro (by decide) (notMem_of_isLower hlower)
      · have htail : Bytes.lowerAscii [] ++ e = e := rfl
        exact advance_rawOpen_tail he htail
  | cons d after =>
      have hopen : (d = '/'.toUInt8 ∧ after.length < e.length) ∧
          Bytes.lowerAscii after <+: e := by
        simpa [leavesRawOpen] using h
      obtain ⟨⟨rfl, -⟩, tail, htail⟩ := hopen
      have hmem : ∀ c ∈ tail, Bytes.isLower c = true :=
        fun c hc => hlower c (by rw [← htail]; simp [hc])
      exact ⟨tail, isAscii_of_isLower hmem, notMem_of_isLower hmem, advance_rawOpen_tail he htail⟩

private theorem exists_differs_rawEnd {e rest : Bytes} (he : isRawElem e = true)
    (h : leavesRawOpen e rest = true) :
    ∃ b, Unicode.isAscii b = true ∧ Differs (.rawText e) ('<'.toUInt8 :: rest) b := by
  obtain ⟨b, hascii, hb, hwhole⟩ := exists_advance_rawOpen he h
  refine ⟨b, hascii, ?_⟩
  rw [Differs, advance_rawOpen he h, advance_rawText_of_notMem e hb, hwhole]
  simp

/-! ## Attribute names that go on -/

/-- A place where a byte that is part of no mark starts an attribute name. -/
def TakesAttr (m : Markup) (t : OpenTag) : Prop := m = .tag t ∨ ∃ a, m = .afterAttrName t a

theorem TakesAttr.step {m : Markup} {t : OpenTag} (h : TakesAttr m t) {c : UInt8} (rest : Bytes)
    (hc : endsAttrName c = false) :
    step m c rest =
      (.attrName t (Unicode.lowerText (c :: rest.takeWhile (!endsAttrName ·))),
        (rest.takeWhile (!endsAttrName ·)).length) := by
  rcases h with rfl | ⟨a, rfl⟩
  · exact step_tag_attr t rest hc
  · exact step_afterAttrName_attr t a rest hc

theorem TakesAttr.advance {m : Markup} {t : OpenTag} (h : TakesAttr m t) {c : UInt8}
    {rest : Bytes} (hc : endsAttrName c = false) (hall : rest.all (!endsAttrName ·) = true)
    (b : Bytes) :
    advance m (c :: rest ++ b) =
      advance (.attrName t (Unicode.lowerText (c :: rest ++ b.takeWhile (!endsAttrName ·))))
        (b.dropWhile (!endsAttrName ·)) := by
  have htake : (rest ++ b).takeWhile (!endsAttrName ·) =
      rest ++ b.takeWhile (!endsAttrName ·) :=
    List.takeWhile_append_of_pos (List.all_eq_true.1 hall)
  have hdrop : (rest ++ b).drop (rest ++ b.takeWhile (!endsAttrName ·)).length =
      b.dropWhile (!endsAttrName ·) := by
    have hcut := List.takeWhile_append_dropWhile (p := (!endsAttrName ·)) (l := b)
    calc
      (rest ++ b).drop (rest ++ b.takeWhile (!endsAttrName ·)).length
        = ((rest ++ b.takeWhile (!endsAttrName ·)) ++ b.dropWhile (!endsAttrName ·)).drop
            (rest ++ b.takeWhile (!endsAttrName ·)).length := by rw [List.append_assoc, hcut]
      _ = b.dropWhile (!endsAttrName ·) := List.drop_left
  rw [List.cons_append, advance_cons, h.step _ hc, htake, hdrop]
  rfl

theorem TakesAttr.advance_self {m : Markup} {t : OpenTag} (h : TakesAttr m t) {c : UInt8}
    {rest : Bytes} (hc : endsAttrName c = false) (hall : rest.all (!endsAttrName ·) = true) :
    Markup.advance m (c :: rest) = .attrName t (Unicode.lowerText (c :: rest)) := by
  have hself := h.advance hc hall []
  simpa using hself

private theorem differs_attrName {m : Markup} {t : OpenTag} (h : TakesAttr m t) {c : UInt8}
    {rest : Bytes} (hc : endsAttrName c = false) (hall : rest.all (!endsAttrName ·) = true) :
    Differs m (c :: rest) [0xFF] := by
  have hff : endsAttrName 0xFF = false := by decide
  have hbyte : attrByte 0xFF = [0xC3] ++ [0xBF] := by decide
  have hsplit : advance (.attrName t (Unicode.lowerText (c :: rest))) [0xFF] =
      .attrName t (Unicode.lowerText (c :: rest) ++ attrByte 0xFF) := by
    rw [advance_cons, step_attrName_grow _ _ _ hff]
    simp
  obtain ⟨front, hfront⟩ := Unicode.lowerText_append_ff (c :: rest)
  have hwhole : advance m (c :: rest ++ [0xFF]) = .attrName t (front ++ [0xBD]) := by
    rw [h.advance hc hall, List.takeWhile_cons_of_pos (by simp [hff]),
      List.dropWhile_cons_of_pos (by simp [hff]), List.takeWhile_nil, List.dropWhile_nil, hfront,
      advance_nil]
  rw [Differs, h.advance_self hc hall, hsplit, hwhole, hbyte, ← List.append_assoc]
  intro heq
  injection heq with _ hname
  have hlast := List.append_inj_right' hname rfl
  revert hlast
  decide

private theorem flatMap_attrByte_ascii {r : Bytes} (h : Unicode.isAscii r = true) :
    r.flatMap attrByte = Bytes.lowerAscii r := by
  rw [Unicode.isAscii_iff] at h
  have hbytes : r.map attrByte = r.map fun c => [Bytes.lowerByte c] :=
    List.map_congr_left fun c hc => Unicode.encode_toLower_ascii (h c hc)
  rw [Bytes.lowerAscii, List.map_eq_flatMap, List.flatMap_def, List.flatMap_def, hbytes]

private theorem advance_append_attrName {m : Markup} {t : OpenTag} (h : TakesAttr m t) {c : UInt8}
    {rest b : Bytes} (hc : endsAttrName c = false) (hall : rest.all (!endsAttrName ·) = true)
    (hb : Unicode.isAscii b = true) :
    advance (advance m (c :: rest)) b = advance m (c :: rest ++ b) := by
  have hname : Unicode.isAscii (b.takeWhile (!endsAttrName ·)) = true := by
    rw [Unicode.isAscii_iff] at hb ⊢
    exact fun c hc => hb c ((List.takeWhile_sublist _).subset hc)
  have hgrow : advance (.attrName t (Unicode.lowerText (c :: rest))) b =
      advance (.attrName t (Unicode.lowerText (c :: rest) ++
        (b.takeWhile (!endsAttrName ·)).flatMap attrByte)) (b.dropWhile (!endsAttrName ·)) := by
    have hcut := advance_attrName_grow t (Unicode.lowerText (c :: rest))
      (List.all_takeWhile (p := (!endsAttrName ·)) (l := b)) (b.dropWhile (!endsAttrName ·))
    rwa [List.takeWhile_append_dropWhile] at hcut
  rw [h.advance_self hc hall, hgrow, h.advance hc hall, flatMap_attrByte_ascii hname,
    Unicode.lowerText_append_ascii _ hname]

/-! ## When the cut is not seen -/

theorem openStep?_attrName {m : Markup} {c : UInt8} {rest : Bytes}
    (h : openStep? m c rest = some .attrName) :
    ∃ t, TakesAttr m t ∧ endsAttrName c = false ∧ rest.all (!endsAttrName ·) = true := by
  cases m with
  | tag t => exact ⟨t, Or.inl rfl, by simpa [openStep?, startsAttr] using h⟩
  | afterAttrName t a => exact ⟨t, Or.inr ⟨a, rfl⟩, by simpa [openStep?, startsAttr] using h⟩
  | _ => simp [openStep?] at h

private theorem exists_differs_of_openStep? {m : Markup} {c : UInt8} {rest : Bytes} {k : Cut}
    (hm : RawNamed m) (h : openStep? m c rest = some k) :
    ∃ b, (k ≠ .attrName → Unicode.isAscii b = true) ∧ Differs m (c :: rest) b := by
  cases k with
  | opening =>
      cases m with
      | text =>
          have hopen : c = '<'.toUInt8 ∧ leavesOpen rest = true := by simpa [openStep?] using h
          obtain ⟨rfl, hrest⟩ := hopen
          obtain ⟨b, hb, hdiff⟩ := exists_differs_opening hrest
          exact ⟨b, fun _ => hb, hdiff⟩
      | _ => simp [openStep?] at h
  | commentEnd =>
      cases m with
      | comment =>
          have hopen : c = '-'.toUInt8 ∧ (rest = [] ∨ rest = ['-'.toUInt8]) := by
            simpa [openStep?, Classical.or_iff_not_imp_left] using h
          obtain ⟨rfl, hrest⟩ := hopen
          obtain ⟨b, hb, hdiff⟩ := exists_differs_commentEnd hrest
          exact ⟨b, fun _ => hb, hdiff⟩
      | _ => simp [openStep?] at h
  | rawEnd =>
      cases m with
      | rawText e =>
          have hopen : c = '<'.toUInt8 ∧ leavesRawOpen e rest = true := by
            simpa [openStep?] using h
          obtain ⟨rfl, hrest⟩ := hopen
          obtain ⟨b, hb, hdiff⟩ := exists_differs_rawEnd (hm e rfl) hrest
          exact ⟨b, fun _ => hb, hdiff⟩
      | _ => simp [openStep?] at h
  | attrName =>
      obtain ⟨t, ht, hc, hall⟩ := openStep?_attrName h
      exact ⟨[0xFF], fun hne => absurd rfl hne, differs_attrName ht hc hall⟩

private theorem exists_differs_of_cut? {m : Markup} {a : Bytes} {k : Cut} (hm : RawNamed m)
    (h : cut? m a = some k) :
    ∃ b, (k ≠ .attrName → Unicode.isAscii b = true) ∧ Differs m a b := by
  obtain ⟨m', c, rest, hopen, hm', hadv⟩ := exists_openStep?_of_cut? hm h
  obtain ⟨b, hb, hdiff⟩ := exists_differs_of_openStep? hm' hopen
  have hself : advance m a = advance m' (c :: rest) := by simpa using hadv []
  refine ⟨b, hb, ?_⟩
  rw [Differs, hself, hadv b]
  exact hdiff

private theorem advance_append_of_cut?_eq_attrName {m : Markup} {a b : Bytes} (hm : RawNamed m)
    (h : cut? m a = some .attrName) (hb : Unicode.isAscii b = true) :
    advance (advance m a) b = advance m (a ++ b) := by
  obtain ⟨m', c, rest, hopen, -, hadv⟩ := exists_openStep?_of_cut? hm h
  obtain ⟨t, ht, hc, hall⟩ := openStep?_attrName hopen
  have hself : advance m a = advance m' (c :: rest) := by simpa using hadv []
  rw [hself, hadv b, advance_append_attrName ht hc hall hb]

/-- At every place that texts lead to from the start of a document, a text is advanced over before
whatever follows it exactly when it ends between two steps; before whatever ASCII text follows it,
also when it ends inside an attribute name. -/
theorem advance_append_iff_cut? (texts : List Bytes) (a : Bytes) :
    ((∀ b, advance (advance (texts.foldl advance .text) a) b =
        advance (texts.foldl advance .text) (a ++ b)) ↔
      cut? (texts.foldl advance .text) a = none) ∧
    ((∀ b, Unicode.isAscii b = true → advance (advance (texts.foldl advance .text) a) b =
        advance (texts.foldl advance .text) (a ++ b)) ↔
      cut? (texts.foldl advance .text) a = none ∨
        cut? (texts.foldl advance .text) a = some .attrName) := by
  have hm : RawNamed (texts.foldl advance .text) := rawNamed_foldl (by simp [RawNamed]) texts
  generalize texts.foldl advance .text = m at hm
  refine ⟨⟨fun hall => ?_, fun hcut b => (advance_append_of_cut?_eq_none b hcut).symm⟩,
    ⟨fun hall => ?_, ?_⟩⟩
  · cases hcut : cut? m a with
    | none => rfl
    | some k =>
        obtain ⟨b, -, hdiff⟩ := exists_differs_of_cut? hm hcut
        exact absurd (hall b) hdiff
  · cases hcut : cut? m a with
    | none => exact Or.inl rfl
    | some k =>
        obtain ⟨b, hb, hdiff⟩ := exists_differs_of_cut? hm hcut
        by_cases hk : k = .attrName
        · exact Or.inr (by rw [hk])
        · exact absurd (hall b (hb hk)) hdiff
  · rintro (hcut | hcut) b hb
    · exact (advance_append_of_cut?_eq_none b hcut).symm
    · exact advance_append_of_cut?_eq_attrName hm hcut hb

/-- An element name cut in two is read as an element and an attribute. -/
theorem advance_append_ne_cut_name :
    advance (advance .text (Bytes.ofString "<di")) (Bytes.ofString "v ") ≠
      advance .text (Bytes.ofString "<di" ++ Bytes.ofString "v ") := by
  decide_cbv

end TagLoom.Markup

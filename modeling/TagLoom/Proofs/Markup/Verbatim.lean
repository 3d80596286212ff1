import TagLoom.Proofs.Markup.Append
import TagLoom.Proofs.Template.Regions

/-!
# Regions and places

The reader of templates finds comments and raw text by its own rules.  The braces of such a region
are text of the page as well when the region starts where the page has a comment or raw text
start, and this is exact: from any other place some region of the same kind leaves what it should
stay in.
-/

namespace TagLoom.Markup

/-- Whether a brace is plain text at a place. -/
def isVerbatim : Markup → Bool
  | .comment | .rawText _ => true
  | _ => false

def InTag (m : Markup) : Prop := m ≠ .text ∧ m.isVerbatim = false

/-! ## A mark after a text -/

private theorem inTag_of_leavesOpen {rest : Bytes} (h : leavesOpen rest = true)
    (hlong : rest ≠ [] ∧ rest ≠ ['/'.toUInt8] ∧ rest ≠ ['!'.toUInt8] ∧
      rest ≠ ['!'.toUInt8, '-'.toUInt8]) (b : Bytes) :
    ∃ t s, s <:+ b ∧ advance .text ('<'.toUInt8 :: rest ++ b) = advance (.tag t) s := by
  cases rest with
  | nil => exact absurd rfl hlong.1
  | cons d after =>
      by_cases hslash : d = '/'.toUInt8
      · subst hslash
        rw [leavesOpen_slash] at h
        cases after with
        | nil => exact absurd rfl hlong.2.1
        | cons l more =>
            have hname : Bytes.isLetter l = true ∧ (l :: more).all (!endsElemName ·) = true := by
              simpa using h
            have htake : ((l :: more) ++ b).takeWhile (!endsElemName ·) =
                (l :: more) ++ b.takeWhile (!endsElemName ·) :=
              List.takeWhile_append_of_pos (List.all_eq_true.1 hname.2)
            refine ⟨⟨Unicode.lowerText (l :: more ++ b.takeWhile (!endsElemName ·)), true⟩,
              b.drop (b.takeWhile (!endsElemName ·)).length, List.drop_suffix _ _, ?_⟩
            rw [List.cons_append, List.cons_append, advance_cons, step_text_slash,
              if_pos (by simp [hname.1]), htake]
            congr 1
            rw [List.length_append, Nat.add_comm 1, List.drop_succ_cons, ← List.drop_drop,
              List.drop_left]
      by_cases hbang : d = '!'.toUInt8
      · subst hbang
        rw [leavesOpen_bang] at h
        have hafter : after = [] ∨ after = ['-'.toUInt8] := by simpa using h
        rcases hafter with rfl | rfl
        · exact absurd rfl hlong.2.2.1
        · exact absurd rfl hlong.2.2.2
      rw [leavesOpen_name after hbang hslash] at h
      have hname : Bytes.isLetter d = true ∧ (d :: after).all (!endsElemName ·) = true := by
        simpa using h
      have htake : ((d :: after) ++ b).takeWhile (!endsElemName ·) =
          (d :: after) ++ b.takeWhile (!endsElemName ·) :=
        List.takeWhile_append_of_pos (List.all_eq_true.1 hname.2)
      refine ⟨⟨Unicode.lowerText (d :: after ++ b.takeWhile (!endsElemName ·)), false⟩,
        b.drop (b.takeWhile (!endsElemName ·)).length, List.drop_suffix _ _, ?_⟩
      rw [List.cons_append, List.cons_append, advance_cons, step_text_name _ hbang hslash,
        if_pos hname.1, ← List.cons_append, htake]
      congr 1
      rw [List.length_append, ← List.drop_drop, List.drop_left]

/-- What can be open at the end of a text: the start of a mark in text, the start of the mark that
ends a comment or raw text, or a name inside a tag. -/
private theorem openStep?_cases {m : Markup} {c : UInt8} {rest : Bytes} {k : Cut}
    (h : openStep? m c rest = some k) :
    (m = .text ∧ c = '<'.toUInt8 ∧ (rest = [] ∨ rest = ['/'.toUInt8] ∨ rest = ['!'.toUInt8] ∨
      rest = ['!'.toUInt8, '-'.toUInt8])) ∨
    (m = .comment ∧ c = '-'.toUInt8 ∧ (rest = [] ∨ rest = ['-'.toUInt8])) ∨
    (∃ e, m = .rawText e ∧ c = '<'.toUInt8 ∧ leavesRawOpen e rest = true) ∨
    (∀ b, ∃ m' s, m'.InTag ∧ s <:+ b ∧ advance m (c :: rest ++ b) = advance m' s) := by
  cases k with
  | opening =>
      cases m with
      | text =>
          have hopen : c = '<'.toUInt8 ∧ leavesOpen rest = true := by simpa [openStep?] using h
          obtain ⟨rfl, hrest⟩ := hopen
          by_cases hshort : rest = [] ∨ rest = ['/'.toUInt8] ∨ rest = ['!'.toUInt8] ∨
              rest = ['!'.toUInt8, '-'.toUInt8]
          · exact Or.inl ⟨rfl, rfl, hshort⟩
          · simp only [not_or] at hshort
            refine Or.inr (Or.inr (Or.inr fun b => ?_))
            obtain ⟨t, s, hs, hadv⟩ := inTag_of_leavesOpen hrest hshort b
            exact ⟨.tag t, s, by simp [InTag, isVerbatim], hs, hadv⟩
      | _ => simp [openStep?] at h
  | commentEnd =>
      cases m with
      | comment =>
          have hopen : c = '-'.toUInt8 ∧ (rest = [] ∨ rest = ['-'.toUInt8]) := by
            simpa [openStep?, Classical.or_iff_not_imp_left] using h
          exact Or.inr (Or.inl ⟨rfl, hopen⟩)
      | _ => simp [openStep?] at h
  | rawEnd =>
      cases m with
      | rawText e =>
          have hopen : c = '<'.toUInt8 ∧ leavesRawOpen e rest = true := by
            simpa [openStep?] using h
          exact Or.inr (Or.inr (Or.inl ⟨e, rfl, hopen⟩))
      | _ => simp [openStep?] at h
  | attrName =>
      obtain ⟨t, ht, hc, hall⟩ := openStep?_attrName h
      refine Or.inr (Or.inr (Or.inr fun b => ?_))
      exact ⟨_, _, by simp [InTag, isVerbatim], List.dropWhile_suffix _, ht.advance hc hall b⟩

theorem inTag_step {m : Markup} (h : m.InTag) {c : UInt8} (hc : c ≠ '>'.toUInt8) (rest : Bytes) :
    (step m c rest).1.InTag := by
  have hgt : (c == '>'.toUInt8) = false := by simpa using hc
  cases m with
  | text => exact absurd rfl h.1
  | comment => exact absurd h.2 (by simp [isVerbatim])
  | rawText e => exact absurd h.2 (by simp [isVerbatim])
  | _ =>
      simp only [step, hgt]
      repeat' split
      all_goals simp_all [InTag, isVerbatim]

theorem inTag_advance {m : Markup} (h : m.InTag) {s : Bytes} (hs : '>'.toUInt8 ∉ s) :
    (advance m s).InTag := by
  induction m, s using advance_induction with
  | nil m => simpa using h
  | cons m c rest ih =>
      have hc : c ≠ '>'.toUInt8 := fun heq => hs (by simp [heq])
      rw [advance_cons]
      exact ih (inTag_step h hc rest)
        fun hmem => hs (List.mem_cons_of_mem _ (List.mem_of_mem_drop hmem))

/-! ## A mark after a text -/

private theorem advance_lt_nil (s : Bytes) :
    advance .text ('<'.toUInt8 :: '<'.toUInt8 :: s) = advance .text ('<'.toUInt8 :: s) := by
  rw [advance_cons, step_text_name _ (by decide) (by decide), if_neg (by decide)]
  rfl

private theorem advance_lt_slash (s : Bytes) :
    advance .text ('<'.toUInt8 :: '/'.toUInt8 :: '<'.toUInt8 :: s) =
      advance .text ('<'.toUInt8 :: s) := by
  rw [advance_cons, step_text_slash, if_neg (by simp; decide), List.drop_zero, advance_cons,
    step_text_other _ (by decide)]
  rfl

private theorem advance_lt_bang {after : Bytes} (h : after = [] ∨ after = ['-'.toUInt8])
    (s : Bytes) :
    advance .text ('<'.toUInt8 :: '!'.toUInt8 :: after ++ '<'.toUInt8 :: s) =
      advance .text ('<'.toUInt8 :: s) := by
  have hdashes : Bytes.ofString "--" = ['-'.toUInt8, '-'.toUInt8] := by decide
  have hne : ('-'.toUInt8 == '<'.toUInt8) = false := by decide
  rcases h with rfl | rfl
  · rw [List.cons_append, List.cons_append, advance_cons, step_text_bang,
      if_neg (by simp [Bytes.startsWith, hdashes, List.isPrefixOf, hne]), List.drop_zero,
      advance_cons, step_text_other _ (by decide)]
    rfl
  · rw [List.cons_append, List.cons_append, advance_cons, step_text_bang,
      if_neg (by simp [Bytes.startsWith, hdashes, List.isPrefixOf, hne]), List.drop_zero,
      advance_cons, step_text_other _ (by decide), List.drop_zero, List.cons_append, advance_cons,
      step_text_other _ (by decide)]
    rfl

private theorem advance_dash_lt {rest : Bytes} (h : rest = [] ∨ rest = ['-'.toUInt8]) (s : Bytes) :
    advance .comment ('-'.toUInt8 :: rest ++ '<'.toUInt8 :: s) =
      advance .comment ('<'.toUInt8 :: s) := by
  have hclose : Bytes.ofString "->" = ['-'.toUInt8, '>'.toUInt8] := by decide
  have hne : ('-'.toUInt8 == '<'.toUInt8) = false := by decide
  have hne' : ('>'.toUInt8 == '<'.toUInt8) = false := by decide
  rcases h with rfl | rfl
  · rw [List.cons_append, advance_cons, step_comment_dash,
      if_neg (by simp [Bytes.startsWith, hclose, List.isPrefixOf, hne])]
    rfl
  · rw [List.cons_append, advance_cons, step_comment_dash,
      if_neg (by simp [Bytes.startsWith, hclose, List.isPrefixOf, hne']), List.drop_zero,
      List.cons_append, advance_cons, step_comment_dash,
      if_neg (by simp [Bytes.startsWith, hclose, List.isPrefixOf, hne])]
    rfl

/-- The start of an end tag is no end tag when another mark follows it. -/
private theorem advance_rawOpen_lt {e rest : Bytes} (he : isRawElem e = true)
    (h : leavesRawOpen e rest = true) (s : Bytes) :
    advance (.rawText e) ('<'.toUInt8 :: rest ++ '<'.toUInt8 :: s) =
      advance (.rawText e) ('<'.toUInt8 :: s) := by
  have hlower := isLower_of_isRawElem he
  cases rest with
  | nil =>
      rw [List.cons_append, List.nil_append, advance_cons, step_rawText_lt,
        if_neg (fun hslash => absurd hslash.1 (by decide))]
      rfl
  | cons d after =>
      have hopen : (d = '/'.toUInt8 ∧ after.length < e.length) ∧
          Bytes.lowerAscii after <+: e := by
        simpa [leavesRawOpen] using h
      obtain ⟨⟨rfl, hlen⟩, hstart⟩ := hopen
      have hafter := notMem_of_leavesRawOpen he hstart
      have hno : Bytes.lowerAscii ((after ++ '<'.toUInt8 :: s).take e.length) ≠ e := by
        intro heq
        have hmem : '<'.toUInt8 ∈ (after ++ '<'.toUInt8 :: s).take e.length := by
          rw [List.take_append, List.take_of_length_le (Nat.le_of_lt hlen)]
          obtain ⟨k, hk⟩ : ∃ k, e.length - after.length = k + 1 :=
            ⟨e.length - after.length - 1, by omega⟩
          rw [hk, List.take_succ_cons]
          simp
        have hmem' : Bytes.lowerByte '<'.toUInt8 ∈ e := by
          rw [← heq]
          exact List.mem_map_of_mem hmem
        have hsame : Bytes.lowerByte '<'.toUInt8 = '<'.toUInt8 := by decide
        rw [hsame] at hmem'
        exact notMem_of_isLower hlower hmem'
      rw [List.cons_append, List.cons_append, advance_cons, step_rawText_lt,
        if_neg fun hmatch => hno hmatch.2, List.drop_zero, advance_cons,
        step_rawText_other _ _ (by decide), List.drop_zero]
      exact advance_rawText_append e hafter _

def openMarks : List Bytes :=
  [[], ['/'.toUInt8], ['!'.toUInt8], ['!'.toUInt8, '-'.toUInt8]]

/-- Where a text that is cut ends, and what is read on with whatever follows it. -/
private theorem cut?_cases {m : Markup} (hm : RawNamed m) {p : Bytes} {k : Cut}
    (hcut : cut? m p = some k) :
    (advance m p = .text ∧ ∃ rest ∈ openMarks,
      ∀ b, advance m (p ++ b) = advance .text ('<'.toUInt8 :: rest ++ b)) ∨
    (advance m p = .comment ∧ ∃ rest, (rest = [] ∨ rest = ['-'.toUInt8]) ∧
      ∀ b, advance m (p ++ b) = advance .comment ('-'.toUInt8 :: rest ++ b)) ∨
    (∃ e rest, advance m p = .rawText e ∧ isRawElem e = true ∧ leavesRawOpen e rest = true ∧
      ∀ b, advance m (p ++ b) = advance (.rawText e) ('<'.toUInt8 :: rest ++ b)) ∨
    ((advance m p).InTag ∧
      ∀ b, ∃ m' s, m'.InTag ∧ s <:+ b ∧ advance m (p ++ b) = advance m' s) := by
  obtain ⟨m', c, rest, hopen, hm', hadv⟩ := exists_openStep?_of_cut? hm hcut
  have hself : advance m p = advance m' (c :: rest) := by simpa using hadv []
  rw [hself]
  rcases openStep?_cases hopen with ⟨rfl, rfl, hrest⟩ | ⟨rfl, rfl, hrest⟩ | ⟨e, rfl, rfl, hrest⟩ |
    htag
  · have hmem : rest ∈ openMarks := by simpa [openMarks] using hrest
    have hend : ∀ r ∈ openMarks, advance .text ('<'.toUInt8 :: r) = .text := by decide_cbv
    exact Or.inl ⟨hend rest hmem, rest, hmem, hadv⟩
  · refine Or.inr (Or.inl ⟨?_, rest, hrest, hadv⟩)
    rcases hrest with rfl | rfl <;> decide_cbv
  · have he := hm' e rfl
    exact Or.inr (Or.inr (Or.inl ⟨e, rest, advance_rawOpen he hrest, he, hrest, hadv⟩))
  · refine Or.inr (Or.inr (Or.inr ⟨?_, fun b => ?_⟩))
    · obtain ⟨m'', s, hin, hsuffix, heq⟩ := htag []
      rw [List.suffix_nil.1 hsuffix, List.append_nil, advance_nil] at heq
      rw [heq]
      exact hin
    · obtain ⟨m'', s, hin, hsuffix, heq⟩ := htag b
      exact ⟨m'', s, hin, hsuffix, (hadv b).trans heq⟩

theorem advance_append_lt {m : Markup} (hm : RawNamed m) {p : Bytes}
    (h : ¬ (advance m p).InTag) (s : Bytes) :
    advance m (p ++ '<'.toUInt8 :: s) = advance (advance m p) ('<'.toUInt8 :: s) := by
  cases hcut : cut? m p with
  | none => exact advance_append_of_cut?_eq_none _ hcut
  | some k =>
      rcases cut?_cases hm hcut with ⟨hend, rest, hrest, hadv⟩ | ⟨hend, rest, hrest, hadv⟩ |
        ⟨e, rest, hend, he, hrest, hadv⟩ | ⟨hin, -⟩
      · rw [hadv, hend]
        have hmark : rest = [] ∨ rest = ['/'.toUInt8] ∨ rest = ['!'.toUInt8] ∨
            rest = ['!'.toUInt8, '-'.toUInt8] := by
          simpa [openMarks] using hrest
        rcases hmark with rfl | rfl | rfl | rfl
        · exact advance_lt_nil s
        · exact advance_lt_slash s
        · exact advance_lt_bang (Or.inl rfl) s
        · exact advance_lt_bang (Or.inr rfl) s
      · rw [hadv, hend]
        exact advance_dash_lt hrest s
      · rw [hadv, hend]
        exact advance_rawOpen_lt he hrest s
      · exact absurd hin h

/-! ## Staying inside a region -/

theorem advance_comment_of_notInfix {c : Bytes} (h : ¬ Bytes.ofString "-->" <:+: c) :
    advance .comment c = .comment := by
  induction c with
  | nil => simp
  | cons d c ih =>
      rw [List.infix_cons_iff, not_or] at h
      have hno : Bytes.startsWith (d :: c) "-->" = false := by
        rw [Bytes.startsWith, ← Bool.not_eq_true, List.isPrefixOf_iff_prefix]
        exact h.1
      have hstep : step .comment d c = (.comment, 0) := by simp [step, hno]
      rw [advance_cons, hstep]
      exact ih h.2

theorem advance_commentMark (c : Bytes) :
    advance .text (Bytes.ofString "<!--" ++ c) = advance .comment c := by
  have hmark : Bytes.ofString "<!--" =
      '<'.toUInt8 :: '!'.toUInt8 :: Bytes.ofString "--" := by decide
  have hstart : Bytes.startsWith (Bytes.ofString "--" ++ c) "--" = true := by
    rw [Bytes.startsWith, List.isPrefixOf_iff_prefix]
    exact List.prefix_append _ _
  rw [hmark, List.cons_append, List.cons_append, advance_cons, step_text_bang, if_pos hstart]
  rfl

theorem advance_comment_region {m : Markup} (hm : RawNamed m) {p c : Bytes}
    (h : advance m p = .text) (hc : ¬ Bytes.ofString "-->" <:+: c) :
    advance m (p ++ (Bytes.ofString "<!--" ++ c)) = .comment := by
  have hmark : Bytes.ofString "<!--" ++ c = '<'.toUInt8 :: (Bytes.ofString "!--" ++ c) := by
    rw [← List.cons_append]
    rfl
  rw [hmark, advance_append_lt hm (by simp [h, InTag]), h, ← hmark, advance_commentMark,
    advance_comment_of_notInfix hc]

theorem advance_rawText_of_notInfix {e c : Bytes}
    (h : ¬ (Bytes.ofString "</" ++ e) <:+: Bytes.lowerAscii c) :
    advance (.rawText e) c = .rawText e := by
  have hmark : Bytes.ofString "</" = ['<'.toUInt8, '/'.toUInt8] := by decide
  induction c with
  | nil => simp
  | cons d c ih =>
      rw [Bytes.lowerAscii, List.map_cons, List.infix_cons_iff, not_or] at h
      have hstep : step (.rawText e) d c = (.rawText e, 0) := by
        by_cases hd : d = '<'.toUInt8
        · subst hd
          cases c with
          | nil => simp
          | cons x after =>
              rw [step_rawText_lt, if_neg]
              rintro ⟨rfl, hmatch⟩
              refine h.1 ?_
              have hlt : Bytes.lowerByte '<'.toUInt8 = '<'.toUInt8 := by decide
              have hslash : Bytes.lowerByte '/'.toUInt8 = '/'.toUInt8 := by decide
              rw [hmark, List.map_cons, hlt, hslash]
              refine (List.prefix_cons_inj _).2 ((List.prefix_cons_inj _).2 ?_)
              change e <+: after.map Bytes.lowerByte
              rw [← hmatch, Bytes.lowerAscii, List.map_take]
              exact List.take_prefix _ _
        · exact step_rawText_other e c hd
      rw [advance_cons, hstep]
      exact ih h.2

/-! ## Leaving a region -/

theorem advance_rawText_endTag {e : Bytes} (he : isRawElem e = true) :
    advance (.rawText e) (Bytes.ofString "</" ++ e) = .tag ⟨e, true⟩ := by
  have hname : e = Bytes.ofString "script" ∨ e = Bytes.ofString "style" := by
    simpa [isRawElem] using he
  rcases hname with rfl | rfl
  · decide_cbv
  · decide_cbv

theorem advance_append_endTag {m : Markup} (hm : RawNamed m) {p e : Bytes}
    (h : advance m p = .rawText e) :
    advance m (p ++ (Bytes.ofString "</" ++ e)) = .tag ⟨e, true⟩ := by
  have he : isRawElem e = true := hm.advance p e h
  have hmark : Bytes.ofString "</" ++ e = '<'.toUInt8 :: (Bytes.ofString "/" ++ e) := by
    rw [← List.cons_append]
    rfl
  rw [hmark, advance_append_lt hm (by simp [h, InTag, isVerbatim]), h, ← hmark,
    advance_rawText_endTag he]

theorem inTag_advance_append {m : Markup} (hm : RawNamed m) {p : Bytes} (h : (advance m p).InTag)
    {s : Bytes} (hs : '>'.toUInt8 ∉ s) : (advance m (p ++ s)).InTag := by
  cases hcut : cut? m p with
  | none =>
      rw [advance_append_of_cut?_eq_none s hcut]
      exact inTag_advance h hs
  | some k =>
      rcases cut?_cases hm hcut with ⟨hend, -⟩ | ⟨hend, -⟩ | ⟨e, rest, hend, -⟩ | ⟨-, hadv⟩
      · exact absurd hend h.1
      · rw [hend] at h
        exact absurd h.2 (by simp [isVerbatim])
      · rw [hend] at h
        exact absurd h.2 (by simp [isVerbatim])
      · obtain ⟨m', s', hin, hsuffix, heq⟩ := hadv s
        rw [heq]
        exact inTag_advance hin fun hmem => hs (hsuffix.subset hmem)

/-! ## Where regions may start -/

/-- Whether the page has the start of a region where a text ends: text for a comment, the raw text
of the same element for raw text. -/
def StartsRegion (m : Markup) (p : Bytes) : Template.Region → Prop
  | .comment => advance m p = .text
  | .rawText name => advance m p = .rawText name ∧ cut? m p = none

theorem isVerbatim_of_startsRegion {m : Markup} (hm : RawNamed m) {p s : Bytes}
    {k : Template.Region} (h : StartsRegion m p k) (hs : k.Holds s) :
    (advance m (p ++ s)).isVerbatim = true := by
  cases k with
  | comment =>
      obtain ⟨c, rfl, hc⟩ := hs
      rw [advance_comment_region hm h hc]
      rfl
  | rawText name =>
      rw [advance_append_of_cut?_eq_none s h.2, h.1, advance_rawText_of_notInfix hs]
      rfl

private theorem exists_leaves_comment {m : Markup} (hm : RawNamed m) {p : Bytes}
    (h : advance m p ≠ .text) :
    ∃ s, Template.Region.comment.Holds s ∧ (advance m (p ++ s)).isVerbatim = false := by
  by_cases hin : (advance m p).InTag
  · refine ⟨Bytes.ofString "<!--", ⟨[], by simp, by decide⟩, ?_⟩
    exact (inTag_advance_append hm hin (by decide)).2
  · cases hend : advance m p with
    | comment =>
        refine ⟨Bytes.ofString "<!-->", ⟨Bytes.ofString ">", by decide, by decide⟩, ?_⟩
        have hmark : Bytes.ofString "<!-->" = '<'.toUInt8 :: Bytes.ofString "!-->" := by decide
        rw [hmark, advance_append_lt hm hin, hend]
        decide_cbv
    | rawText e =>
        have he : isRawElem e = true := hm.advance p e hend
        have hname : e = Bytes.ofString "script" ∨ e = Bytes.ofString "style" := by
          simpa [isRawElem] using he
        refine ⟨Bytes.ofString "<!--" ++ (Bytes.ofString "</" ++ e), ⟨_, rfl, ?_⟩, ?_⟩
        · rcases hname with rfl | rfl <;> decide
        · have hmark : Bytes.ofString "<!--" ++ (Bytes.ofString "</" ++ e) =
              '<'.toUInt8 :: (Bytes.ofString "!--" ++ (Bytes.ofString "</" ++ e)) := by
            rw [← List.cons_append]
            rfl
          rw [hmark, advance_append_lt hm hin, hend]
          rcases hname with rfl | rfl <;> decide_cbv
    | text => exact absurd hend h
    | _ => exact absurd (by rw [hend]; simp [InTag, isVerbatim]) hin

private theorem advance_append_commentEnd {m : Markup} (hm : RawNamed m) {p : Bytes}
    (h : advance m p = .comment) : advance m (p ++ Bytes.ofString "-->") = .text := by
  cases hcut : cut? m p with
  | none =>
      rw [advance_append_of_cut?_eq_none _ hcut, h]
      decide_cbv
  | some k =>
      rcases cut?_cases hm hcut with ⟨hend, -⟩ | ⟨-, rest, hrest, hadv⟩ | ⟨e, rest, hend, -⟩ | ⟨hin, -⟩
      · rw [hend] at h
        contradiction
      · rw [hadv]
        rcases hrest with rfl | rfl <;> decide_cbv
      · rw [hend] at h
        contradiction
      · rw [h] at hin
        exact absurd hin.2 (by simp [isVerbatim])

private theorem exists_leaves_openEnd {m : Markup} (hm : RawNamed m) {p name : Bytes} {k : Cut}
    (h : advance m p = .rawText name) (hcut : cut? m p = some k) :
    ∃ s, '<'.toUInt8 ∉ s ∧ (advance m (p ++ s)).isVerbatim = false := by
  rcases cut?_cases hm hcut with ⟨hend, -⟩ | ⟨hend, -⟩ | ⟨e, rest, -, he, hrest, hadv⟩ | ⟨hin, -⟩
  · rw [hend] at h
    contradiction
  · rw [hend] at h
    contradiction
  · obtain ⟨b, -, hb, hend⟩ := exists_advance_rawOpen he hrest
    refine ⟨b, hb, ?_⟩
    rw [hadv, hend]
    rfl
  · rw [h] at hin
    exact absurd hin.2 (by simp [isVerbatim])

private theorem rawText_holds_of_notMem (name : Bytes) {s : Bytes} (h : '<'.toUInt8 ∉ s) :
    (Template.Region.rawText name).Holds s := by
  intro hinside
  have hmark : Bytes.ofString "</" = ['<'.toUInt8, '/'.toUInt8] := by decide
  have hmem : '<'.toUInt8 ∈ Bytes.lowerAscii s := hinside.subset (by simp [hmark])
  obtain ⟨c, hc, hlower⟩ := List.mem_map.1 hmem
  have hlt : c = '<'.toUInt8 := by
    have hall : ∀ n : Nat, n < 256 → Bytes.lowerByte n.toUInt8 = '<'.toUInt8 →
        n.toUInt8 = '<'.toUInt8 := by
      decide +kernel
    simpa using hall c.toNat c.toNat_lt (by simpa using hlower)
  exact h (hlt ▸ hc)

private theorem rawText_holds_endTag {name e : Bytes} (hname : isRawElem name = true)
    (he : isRawElem e = true) (hne : e ≠ name) :
    (Template.Region.rawText name).Holds (Bytes.ofString "</" ++ e) := by
  have hname' : name = Bytes.ofString "script" ∨ name = Bytes.ofString "style" := by
    simpa [isRawElem] using hname
  have he' : e = Bytes.ofString "script" ∨ e = Bytes.ofString "style" := by
    simpa [isRawElem] using he
  unfold Template.Region.Holds
  rcases hname' with rfl | rfl <;> rcases he' with rfl | rfl
  · exact absurd rfl hne
  · decide
  · decide
  · exact absurd rfl hne

private theorem exists_leaves_rawText {m : Markup} (hm : RawNamed m) {p name : Bytes}
    (hname : isRawElem name = true) (h : ¬ (advance m p = .rawText name ∧ cut? m p = none)) :
    ∃ s, (Template.Region.rawText name).Holds s ∧ (advance m (p ++ s)).isVerbatim = false := by
  by_cases hverb : (advance m p).isVerbatim = true
  · cases hend : advance m p with
    | comment =>
        refine ⟨Bytes.ofString "-->", rawText_holds_of_notMem name (by decide), ?_⟩
        rw [advance_append_commentEnd hm hend]
        rfl
    | rawText e =>
        by_cases he : e = name
        · subst he
          cases hcut : cut? m p with
          | none => exact absurd ⟨hend, hcut⟩ h
          | some k =>
              obtain ⟨s, hs, hleaves⟩ := exists_leaves_openEnd hm hend hcut
              exact ⟨s, rawText_holds_of_notMem e hs, hleaves⟩
        · refine ⟨Bytes.ofString "</" ++ e, ?_, ?_⟩
          · exact rawText_holds_endTag hname (hm.advance p e hend) he
          · rw [advance_append_endTag hm hend]
            rfl
    | _ => simp [hend, isVerbatim] at hverb
  · refine ⟨[], rawText_holds_of_notMem name (by simp), ?_⟩
    simpa using hverb

/-- A text ends where a region may start exactly when every region of that kind keeps its braces
from there on. -/
theorem startsRegion_iff {m : Markup} (hm : RawNamed m) (p : Bytes) {k : Template.Region}
    (hk : k.Named) :
    StartsRegion m p k ↔ ∀ s, k.Holds s → (advance m (p ++ s)).isVerbatim = true := by
  refine ⟨fun h s hs => isVerbatim_of_startsRegion hm h hs, fun hall => ?_⟩
  refine Classical.byContradiction fun hno => ?_
  have hleaves : ∃ s, k.Holds s ∧ (advance m (p ++ s)).isVerbatim = false := by
    cases k with
    | comment => exact exists_leaves_comment hm hno
    | rawText name => exact exists_leaves_rawText hm hk hno
  obtain ⟨s, hs, hfalse⟩ := hleaves
  rw [hall s hs] at hfalse
  contradiction

end TagLoom.Markup

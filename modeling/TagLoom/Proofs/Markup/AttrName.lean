import TagLoom.Proofs.Markup.Append
import TagLoom.Proofs.Unicode.Lower
import Mathlib.Data.List.Induction

/-!
# Attribute names

A name is taken in one piece up to the first byte that ends names, and then byte by byte, where only
blanks, `>` and `=` end it.  No byte of these kinds enters a name or gets lost on the way to lower
case, so the name of a value holds none of them; a slash it holds exactly if the text that writes it
does.
-/

namespace TagLoom.Markup

open Unicode (lowerText)

variable {s name a : Bytes} {c x : UInt8} {m : Markup} {t : OpenTag}

/-! ## Bytes that end names -/

theorem endsAttrName_ascii (hx : endsAttrName x = true) :
    x < 0x80 ∧ Unicode.isShared x = false ∧ Bytes.isLetter x = false := by
  simp only [endsAttrName, endsElemName, Name.isSpace, Bool.or_eq_true, beq_iff_eq] at hx
  rcases hx with ((((((rfl | rfl) | rfl) | rfl) | rfl) | rfl) | rfl) | rfl <;> decide

theorem not_endsElemName_of_isLetter (h : Bytes.isLetter c = true) : endsElemName c = false := by
  refine Bool.eq_false_iff.2 fun hends => ?_
  have hletter := (endsAttrName_ascii (x := c) (by simp [endsAttrName, hends])).2.2
  exact absurd h (by simp [hletter])

theorem mem_lowerText_iff (hx : endsAttrName x = true) : x ∈ lowerText s ↔ x ∈ s := by
  obtain ⟨hascii, hshared, hletter⟩ := endsAttrName_ascii hx
  constructor
  · intro hmem
    obtain ⟨p, q, h⟩ := List.append_of_mem hmem
    obtain ⟨p, c, q, rfl, -, hlower, -, -⟩ := Unicode.exists_of_lowerText_eq hascii hshared h
    rw [(Unicode.lowerByte_eq_iff hletter).1 hlower]
    simp
  · intro hmem
    obtain ⟨p, q, rfl⟩ := List.append_of_mem hmem
    rw [Unicode.lowerText_append p q (Utf8.isContinuation_ascii hascii),
      Unicode.lowerText_cons_ascii q hascii, (Unicode.lowerByte_eq_iff hletter).2 rfl]
    simp

theorem mem_attrByte_iff (hx : endsAttrName x = true) : x ∈ attrByte c ↔ x = c := by
  obtain ⟨hascii, hshared, hletter⟩ := endsAttrName_ascii hx
  by_cases hc : c < 0x80
  · rw [attrByte, Unicode.encode_toLower_ascii hc, List.mem_singleton, eq_comm,
      Unicode.lowerByte_eq_iff hletter, eq_comm]
  · have hnot : x ∉ attrByte c := Unicode.not_mem_encode_toLower (Nat.not_lt.1 hc) hascii hshared
    refine iff_of_false hnot ?_
    rintro rfl
    exact hc hascii

/-! ## What is taken for a name -/

/-- A byte that goes on a name that is begun; a slash does. -/
def goesOn (c : UInt8) : Bool := !Name.isSpace c && c != '>'.toUInt8 && c != '='.toUInt8

/-- What a text writes for a name and the name that is taken from it. -/
inductive ReadAs : Bytes → Bytes → Prop where
  | piece {first : Bytes} (hne : first ≠ []) (hall : ∀ c ∈ first, endsAttrName c = false) :
      ReadAs first (lowerText first)
  | equals : ReadAs ['='.toUInt8] ['='.toUInt8]
  | byte {name a : Bytes} {c : UInt8} (h : ReadAs name a) (hc : goesOn c = true) :
      ReadAs (name ++ [c]) (a ++ attrByte c)

/-- A byte that ends names is in the name taken exactly if it is in the name written. -/
theorem ReadAs.mem_iff (h : ReadAs name a) (hx : endsAttrName x = true) : x ∈ a ↔ x ∈ name := by
  induction h with
  | piece => exact mem_lowerText_iff hx
  | equals => rfl
  | byte h hc ih => simp [ih, mem_attrByte_iff hx]

theorem ReadAs.ne_nil (h : ReadAs name a) : a ≠ [] := by
  induction h with
  | piece hne => exact fun h => hne (Unicode.lowerText_eq_nil_iff.1 h)
  | equals => simp
  | byte h hc ih => simp [ih]

theorem ReadAs.not_ends (h : ReadAs name a) :
    ∀ c ∈ name, Name.isSpace c = false ∧ c ≠ '>'.toUInt8 := by
  induction h with
  | piece hne hall =>
      intro c hc
      obtain ⟨hspace, hgt, -, -⟩ := (not_endsAttrName_iff c).1 (hall c hc)
      exact ⟨hspace, hgt⟩
  | equals => exact List.forall_mem_singleton.2 (by decide)
  | @byte name a d h hd ih =>
      intro c hc
      rw [List.mem_append, List.mem_singleton] at hc
      obtain hc | rfl := hc
      · exact ih c hc
      · simp only [goesOn, Bool.and_eq_true, Bool.not_eq_true', bne_iff_ne] at hd
        exact hd.1

theorem ReadAs.equals_first (h : ReadAs name a) : '='.toUInt8 ∉ a.tail := by
  have heq : endsAttrName '='.toUInt8 = true := by decide
  induction h with
  | piece hne hall =>
      intro hmem
      have hin := (mem_lowerText_iff heq).1 (List.mem_of_mem_tail hmem)
      exact absurd heq (by simp [hall _ hin])
  | equals => simp
  | @byte name a d h hd ih =>
      have hgrown : '='.toUInt8 ∉ attrByte d := by
        rw [mem_attrByte_iff heq]
        rintro rfl
        exact absurd hd (by decide)
      rw [List.tail_append_of_ne_nil h.ne_nil, List.mem_append, not_or]
      exact ⟨ih, hgrown⟩

/-! ## Steps over what they take -/

private theorem takeWhile_take (p : UInt8 → Bool) (s : Bytes) :
    (s.take (s.takeWhile p).length).takeWhile p = s.takeWhile p := by
  have hsplit := List.takeWhile_append_dropWhile (p := p) (l := s)
  have htake : s.take (s.takeWhile p).length = s.takeWhile p := by
    conv => lhs; rhs; rw [← hsplit]
    exact List.take_left
  rw [htake]
  exact takeWhile_all List.all_takeWhile

private theorem startsWith_take {s n : Bytes} (h : Bytes.startsWith s n = true) :
    Bytes.startsWith (s.take n.length) n = true := by
  obtain ⟨t, rfl⟩ := List.isPrefixOf_iff_prefix.1 h
  rw [List.take_left, Bytes.startsWith]
  simp

private theorem step_text_take (c : UInt8) (rest : Bytes) :
    step .text c (rest.take (step .text c rest).2) = step .text c rest := by
  by_cases hc : c ≠ '<'.toUInt8
  · rw [step_text_other rest hc, step_text_other _ hc]
  obtain rfl : c = '<'.toUInt8 := by simpa using hc
  cases rest with
  | nil => rfl
  | cons d after =>
      by_cases hbang : d = '!'.toUInt8
      · subst hbang
        rw [step_text_bang]
        split
        · next h =>
          have hcut : ('!'.toUInt8 :: after).take 3 = '!'.toUInt8 :: after.take 2 := rfl
          have hfront : Bytes.startsWith (after.take 2) "--" = true := startsWith_take h
          rw [hcut, step_text_bang, if_pos hfront]
        · rw [List.take_zero, step_text_lt_nil]
      by_cases hslash : d = '/'.toUInt8
      · subst hslash
        rw [step_text_slash]
        split
        · next h =>
          obtain ⟨l, more, rfl, hl⟩ : ∃ l more, after = l :: more ∧ Bytes.isLetter l = true := by
            cases after with
            | nil => simp at h
            | cons l more => exact ⟨l, more, rfl, by simpa using h⟩
          have hcut : ('/'.toUInt8 :: l :: more).take
                (1 + ((l :: more).takeWhile (!endsElemName ·)).length) =
              '/'.toUInt8 :: (l :: more).take ((l :: more).takeWhile (!endsElemName ·)).length := by
            rw [Nat.add_comm, List.take_succ_cons]
          have hname := not_endsElemName_of_isLetter hl
          have hhead : (((l :: more).take
              ((l :: more).takeWhile (!endsElemName ·)).length).head?.map Bytes.isLetter).getD
                false = true := by
            rw [List.takeWhile_cons_of_pos (by simp [hname])]
            simpa using hl
          rw [hcut, step_text_slash, if_pos hhead, takeWhile_take]
        · rw [List.take_zero, step_text_lt_nil]
      · rw [step_text_name after hbang hslash]
        split
        · next h =>
          have hname := not_endsElemName_of_isLetter h
          have hwhole := takeWhile_take (!endsElemName ·) (d :: after)
          rw [List.takeWhile_cons_of_pos (by simp [hname]), List.length_cons,
            List.take_succ_cons] at hwhole ⊢
          rw [step_text_name _ hbang hslash, if_pos h, hwhole]
          rfl
        · rw [List.take_zero, step_text_lt_nil]

private theorem step_comment_take (c : UInt8) (rest : Bytes) :
    step .comment c (rest.take (step .comment c rest).2) = step .comment c rest := by
  by_cases hc : c = '-'.toUInt8
  · subst hc
    rw [step_comment_dash rest]
    split
    · next h =>
      have hfront : Bytes.startsWith (rest.take 2) "->" = true := startsWith_take h
      rw [step_comment_dash, if_pos hfront]
    · rfl
  · rw [step_comment_other rest hc, step_comment_other _ hc]

private theorem step_rawText_take (e : Bytes) (c : UInt8) (rest : Bytes) :
    step (.rawText e) c (rest.take (step (.rawText e) c rest).2) = step (.rawText e) c rest := by
  by_cases hc : c = '<'.toUInt8
  · subst hc
    cases rest with
    | nil => rfl
    | cons d after =>
        rw [step_rawText_lt]
        split
        · next h =>
          have hcut : (d :: after).take (1 + e.length) = d :: after.take e.length := by
            rw [Nat.add_comm, List.take_succ_cons]
          rw [hcut, step_rawText_lt, List.take_take, Nat.min_self, if_pos h]
        · rw [List.take_zero, step_rawText_lt_nil]
  · rw [step_rawText_other e rest hc, step_rawText_other e _ hc]

theorem step_take (m : Markup) (c : UInt8) (rest : Bytes) :
    step m c (rest.take (step m c rest).2) = step m c rest := by
  cases m with
  | text => exact step_text_take c rest
  | comment => exact step_comment_take c rest
  | rawText e => exact step_rawText_take e c rest
  | tag t =>
      by_cases hc : endsAttrName c = true
      · exact step_tag_other t _ rest hc
      · have hc : endsAttrName c = false := by simpa using hc
        rw [step_tag_attr t rest hc, step_tag_attr t _ hc, takeWhile_take]
  | afterAttrName t a =>
      by_cases hc : endsAttrName c = true
      · exact step_afterAttrName_other t a _ rest hc
      · have hc : endsAttrName c = false := by simpa using hc
        rw [step_afterAttrName_attr t a rest hc, step_afterAttrName_attr t a _ hc, takeWhile_take]
  | attrName | beforeValue | quotedValue | unquotedValue => rfl

theorem advance_take (m : Markup) (c : UInt8) (rest : Bytes) :
    advance m (c :: rest.take (step m c rest).2) = (step m c rest).1 := by
  rw [advance_cons, step_take, List.drop_take, Nat.sub_self, List.take_zero, advance_nil]

/-! ## The text that writes an attribute -/

/-- A text leads to a place, in one piece or cut somewhere. -/
def Reaches (s : Bytes) (m : Markup) : Prop :=
  ∃ texts : List Bytes, texts.flatten = s ∧ texts.foldl advance .text = m

theorem reaches_nil : Reaches [] .text := ⟨[], rfl, rfl⟩

theorem Reaches.step (h : Reaches s m) (c : UInt8) (rest : Bytes) :
    Reaches (s ++ c :: rest.take (step m c rest).2) (Markup.step m c rest).1 := by
  obtain ⟨texts, rfl, rfl⟩ := h
  refine ⟨texts ++ [c :: rest.take (Markup.step (texts.foldl advance .text) c rest).2], ?_, ?_⟩
  · simp
  · rw [List.foldl_append, List.foldl_cons, List.foldl_nil, advance_take]

/-- A gap between a name and what follows it: a blank, then blanks and slashes. -/
structure IsGap (gap : Bytes) : Prop where
  all : ∀ c ∈ gap, Name.isSpace c = true ∨ c = '/'.toUInt8
  first : ∀ c, gap.head? = some c → Name.isSpace c = true

theorem isGap_nil : IsGap [] := ⟨by simp, by simp⟩

/-- What a text writes after the name of an attribute when it leaves off at a place in it. -/
inductive Trails : Markup → Bytes → Prop where
  | name {t : OpenTag} {a : Bytes} : Trails (.attrName t a) []
  | gap {t : OpenTag} {a gap : Bytes} (hgap : IsGap gap) (hne : gap ≠ []) :
      Trails (.afterAttrName t a) gap
  | value {t : OpenTag} {a gap blanks : Bytes} (hgap : IsGap gap)
      (hblanks : Name.isBlank blanks = true) :
      Trails (.beforeValue t a) (gap ++ '='.toUInt8 :: blanks)
  | quoted {t : OpenTag} {a gap blanks value : Bytes} {q : UInt8} (hgap : IsGap gap)
      (hblanks : Name.isBlank blanks = true) (hquote : q = '"'.toUInt8 ∨ q = '\''.toUInt8)
      (hvalue : q ∉ value) :
      Trails (.quotedValue t a q) (gap ++ '='.toUInt8 :: (blanks ++ q :: value))
  | unquoted {t : OpenTag} {a gap blanks value : Bytes} (hgap : IsGap gap)
      (hblanks : Name.isBlank blanks = true)
      (hvalue : ∀ c ∈ value, Name.isSpace c = false ∧ c ≠ '>'.toUInt8) :
      Trails (.unquotedValue t a) (gap ++ '='.toUInt8 :: (blanks ++ value))

/-- A text writes an attribute and leaves off in it: it leads into a tag, writes a name there, and
what follows the name leads to the place. -/
structure Writes (s : Bytes) (m : Markup) (name rest : Bytes) : Prop where
  start : ∃ before m₀ t, s = before ++ name ++ rest ∧ Reaches before m₀ ∧ TakesAttr m₀ t ∧
    m.elem = t.elem
  readAs : ReadAs name m.attr
  trails : Trails m rest

def isAttr : Markup → Bool
  | .text | .comment | .rawText _ | .tag _ => false
  | _ => true

/-- A place before or in the value of an attribute. -/
def isValue : Markup → Bool
  | .beforeValue _ _ | .quotedValue _ _ _ | .unquotedValue _ _ => true
  | _ => false

/-- A text leads to a place, and writes the attribute if the place is in one. -/
structure Traced (s : Bytes) (m : Markup) : Prop where
  reaches : Reaches s m
  writes : m.isAttr = true → ∃ name rest, Writes s m name rest

theorem isAttr_afterTag (t : OpenTag) : (afterTag t).isAttr = false := by
  unfold afterTag
  split <;> rfl

theorem isAttr_step_text (c : UInt8) (rest : Bytes) : (step .text c rest).1.isAttr = false := by
  simp only [step]
  repeat' split
  all_goals rfl

variable {rest : Bytes} {m' : Markup}

theorem Writes.extend (h : Writes s m name rest) (helem : m'.elem = m.elem)
    (hattr : m'.attr = m.attr) (htrails : Trails m' (rest ++ [c])) :
    Writes (s ++ [c]) m' name (rest ++ [c]) := by
  obtain ⟨before, m₀, t, rfl, hreaches, htakes, ht⟩ := h.start
  exact ⟨⟨before, m₀, t, by simp, hreaches, htakes, helem.trans ht⟩, hattr ▸ h.readAs, htrails⟩

theorem Writes.grow (h : Writes s (.attrName t a) name rest) (hc : goesOn c = true) :
    Writes (s ++ [c]) (.attrName t (a ++ attrByte c)) (name ++ [c]) [] := by
  obtain ⟨before, m₀, t', hs, hreaches, htakes, ht⟩ := h.start
  have hrest : rest = [] := by
    cases h.trails
    rfl
  subst hs hrest
  exact ⟨⟨before, m₀, t', by simp, hreaches, htakes, ht⟩, h.readAs.byte hc, .name⟩

theorem Reaches.writes (h : Reaches s m) (htakes : TakesAttr m t) (hread : ReadAs name a) :
    Writes (s ++ name) (.attrName t a) name [] :=
  ⟨⟨s, m, t, by simp, h, htakes, rfl⟩, hread, .name⟩

theorem TakesAttr.readAs_piece (hc : endsAttrName c = false) (rest : Bytes) :
    ReadAs (c :: rest.takeWhile (!endsAttrName ·))
      (lowerText (c :: rest.takeWhile (!endsAttrName ·))) := by
  refine .piece (by simp) fun d hd => ?_
  obtain rfl | hd := List.mem_cons.1 hd
  · exact hc
  · simpa using List.all_eq_true.1 List.all_takeWhile d hd

theorem isGap_singleton (hc : Name.isSpace c = true) : IsGap [c] :=
  ⟨by simp [hc], by simp [hc]⟩

theorem IsGap.snoc {gap : Bytes} (h : IsGap gap) (hne : gap ≠ [])
    (hc : Name.isSpace c = true ∨ c = '/'.toUInt8) : IsGap (gap ++ [c]) := by
  obtain ⟨d, gap, rfl⟩ := List.exists_cons_of_ne_nil hne
  refine ⟨fun e he => ?_, h.first⟩
  obtain he | he := List.mem_append.1 he
  · exact h.all e he
  · exact List.mem_singleton.1 he ▸ hc

theorem isBlank_snoc {blanks : Bytes} (h : Name.isBlank blanks = true)
    (hc : Name.isSpace c = true) : Name.isBlank (blanks ++ [c]) = true := by
  simp only [Name.isBlank, List.all_append, Bool.and_eq_true] at h ⊢
  exact ⟨h, by simp [hc]⟩

/-! ## Steps of the text that writes an attribute -/

theorem isAttr_step_tag (t : OpenTag) (rest : Bytes) (hends : endsAttrName c = true)
    (heq : c ≠ '='.toUInt8) : (step (.tag t) c rest).1.isAttr = false := by
  simp only [endsAttrName, endsElemName, Bool.or_eq_true, beq_iff_eq, heq, or_false] at hends
  obtain (hspace | rfl) | rfl := hends
  · have hgt : (c == '>'.toUInt8) = false := by
      refine Bool.eq_false_iff.2 fun h => ?_
      rw [beq_iff_eq.1 h] at hspace
      exact absurd hspace (by decide)
    simp [step, hgt, hspace, isAttr]
  · simp [step, isAttr_afterTag]
  · rfl

/-- What a step from a place leaves is written by the text so far and what the step takes. -/
def StepWrites (s : Bytes) (m : Markup) (c : UInt8) (rest : Bytes) : Prop :=
  (step m c rest).1.isAttr = true →
    ∃ name rest', Writes (s ++ c :: rest.take (step m c rest).2) (step m c rest).1 name rest'

private theorem take_takeWhile (p : UInt8 → Bool) (s : Bytes) :
    s.take (s.takeWhile p).length = s.takeWhile p := by
  conv => lhs; rhs; rw [← List.takeWhile_append_dropWhile (p := p) (l := s)]
  exact List.take_left

private theorem stepWrites_piece (h : Reaches s m) (htakes : TakesAttr m t)
    (hc : endsAttrName c = false) (rest : Bytes) : StepWrites s m c rest := by
  intro _
  rw [htakes.step rest hc, take_takeWhile]
  exact ⟨_, _, h.writes htakes (TakesAttr.readAs_piece hc rest)⟩

private theorem stepWrites_tag (h : Reaches s (.tag t)) (c : UInt8) (rest : Bytes) :
    StepWrites s (.tag t) c rest := by
  by_cases hends : endsAttrName c = true
  · by_cases heq : c = '='.toUInt8
    · subst heq
      exact fun _ => ⟨_, _, h.writes (.inl rfl) .equals⟩
    · exact fun hattr => absurd hattr (by simp [isAttr_step_tag t rest hends heq])
  · exact stepWrites_piece h (.inl rfl) (by simpa using hends) rest

private theorem stepWrites_afterAttrName (h : Traced s (.afterAttrName t a)) (c : UInt8)
    (rest : Bytes) : StepWrites s (.afterAttrName t a) c rest := by
  obtain ⟨name, gap, hw⟩ := h.writes rfl
  obtain ⟨hgap, hne⟩ : IsGap gap ∧ gap ≠ [] := by
    cases hw.trails with
    | gap hgap hne => exact ⟨hgap, hne⟩
  by_cases hpiece : endsAttrName c = false
  · exact stepWrites_piece h.reaches (.inr ⟨a, rfl⟩) hpiece rest
  have hends : endsAttrName c = true := by simpa using hpiece
  rw [StepWrites, step_afterAttrName_ends t a rest hends]
  simp only [step]
  split
  · simp [isAttr_afterTag]
  split
  · next hblank =>
    exact fun _ =>
      ⟨name, _, hw.extend rfl rfl (.gap (hgap.snoc hne (by simpa using hblank)) (by simp))⟩
  split
  · next heq =>
    rw [beq_iff_eq.1 heq]
    exact fun _ => ⟨name, _, hw.extend rfl rfl (.value hgap (by rfl))⟩
  · next hgt hblank heq =>
    simp_all [endsAttrName, endsElemName]

private theorem stepWrites_attrName (h : Traced s (.attrName t a)) (c : UInt8) (rest : Bytes) :
    StepWrites s (.attrName t a) c rest := by
  obtain ⟨name, rest', hw⟩ := h.writes rfl
  obtain rfl : rest' = [] := by
    cases hw.trails
    rfl
  simp only [StepWrites, step]
  split
  · next heq =>
    rw [beq_iff_eq.1 heq]
    exact fun _ => ⟨name, _, hw.extend rfl rfl (.value isGap_nil (by rfl))⟩
  split
  · simp [isAttr_afterTag]
  split
  · next hspace =>
    exact fun _ => ⟨name, _, hw.extend rfl rfl (.gap (isGap_singleton hspace) (by simp))⟩
  · exact fun _ => ⟨_, _, hw.grow (by simp_all [goesOn])⟩

private theorem stepWrites_beforeValue (h : Traced s (.beforeValue t a)) (c : UInt8)
    (rest : Bytes) : StepWrites s (.beforeValue t a) c rest := by
  obtain ⟨name, rest', hw⟩ := h.writes rfl
  obtain ⟨gap, blanks, rfl, hgap, hblanks⟩ : ∃ gap blanks,
      rest' = gap ++ '='.toUInt8 :: blanks ∧ IsGap gap ∧ Name.isBlank blanks = true := by
    cases hw.trails with
    | value hgap hblanks => exact ⟨_, _, rfl, hgap, hblanks⟩
  simp only [StepWrites, step]
  split
  · next hspace =>
    have htrails : Trails (.beforeValue t a) (gap ++ '='.toUInt8 :: (blanks ++ [c])) :=
      .value hgap (isBlank_snoc hblanks hspace)
    exact fun _ => ⟨name, _, hw.extend rfl rfl (by simpa using htrails)⟩
  split
  · next hquote =>
    have htrails : Trails (.quotedValue t a c) (gap ++ '='.toUInt8 :: (blanks ++ c :: [])) :=
      .quoted hgap hblanks (by simpa using hquote) (by simp)
    exact fun _ => ⟨name, _, hw.extend rfl rfl (by simpa using htrails)⟩
  split
  · simp [isAttr_afterTag]
  · next hspace _ hgt =>
    have hvalue : ∀ d ∈ [c], Name.isSpace d = false ∧ d ≠ '>'.toUInt8 := by
      simpa using And.intro hspace hgt
    have htrails : Trails (.unquotedValue t a) (gap ++ '='.toUInt8 :: (blanks ++ [c])) :=
      .unquoted hgap hblanks hvalue
    exact fun _ => ⟨name, _, hw.extend rfl rfl (by simpa using htrails)⟩

private theorem stepWrites_quotedValue {q : UInt8} (h : Traced s (.quotedValue t a q)) (c : UInt8)
    (rest : Bytes) : StepWrites s (.quotedValue t a q) c rest := by
  obtain ⟨name, rest', hw⟩ := h.writes rfl
  cases hw.trails with
  | @quoted _ _ gap blanks value _ hgap hblanks hquote hvalue =>
    simp only [StepWrites, step]
    split
    · simp [isAttr]
    · next hc =>
      have hvalue' : q ∉ value ++ [c] := by
        rw [List.mem_append, List.mem_singleton, not_or]
        exact ⟨hvalue, fun h => hc (by simp [h])⟩
      have htrails : Trails (.quotedValue t a q)
          (gap ++ '='.toUInt8 :: (blanks ++ q :: (value ++ [c]))) :=
        .quoted hgap hblanks hquote hvalue'
      exact fun _ => ⟨name, _, hw.extend rfl rfl (by simpa using htrails)⟩

private theorem stepWrites_unquotedValue (h : Traced s (.unquotedValue t a)) (c : UInt8)
    (rest : Bytes) : StepWrites s (.unquotedValue t a) c rest := by
  obtain ⟨name, rest', hw⟩ := h.writes rfl
  cases hw.trails with
  | @unquoted _ _ gap blanks value hgap hblanks hvalue =>
    simp only [StepWrites, step]
    split
    · simp [isAttr]
    split
    · simp [isAttr_afterTag]
    · next hspace hgt =>
      have hvalue' : ∀ d ∈ value ++ [c], Name.isSpace d = false ∧ d ≠ '>'.toUInt8 := by
        intro d hd
        obtain hd | hd := List.mem_append.1 hd
        · exact hvalue d hd
        · rw [List.mem_singleton.1 hd]
          simpa using And.intro hspace hgt
      have htrails : Trails (.unquotedValue t a)
          (gap ++ '='.toUInt8 :: (blanks ++ (value ++ [c]))) :=
        .unquoted hgap hblanks hvalue'
      exact fun _ => ⟨name, _, hw.extend rfl rfl (by simpa using htrails)⟩

theorem Traced.step (h : Traced s m) (c : UInt8) (rest : Bytes) :
    Traced (s ++ c :: rest.take (Markup.step m c rest).2) (Markup.step m c rest).1 := by
  refine ⟨h.reaches.step c rest, ?_⟩
  cases m with
  | text => exact fun hattr => absurd hattr (by simp [isAttr_step_text])
  | comment =>
      intro hattr
      simp only [Markup.step] at hattr
      split at hattr <;> exact absurd hattr (by simp [isAttr])
  | rawText e =>
      intro hattr
      simp only [Markup.step] at hattr
      split at hattr <;> exact absurd hattr (by simp [isAttr])
  | tag t => exact stepWrites_tag h.reaches c rest
  | afterAttrName t a => exact stepWrites_afterAttrName h c rest
  | attrName t a => exact stepWrites_attrName h c rest
  | beforeValue t a => exact stepWrites_beforeValue h c rest
  | quotedValue t a q => exact stepWrites_quotedValue h c rest
  | unquotedValue t a => exact stepWrites_unquotedValue h c rest

theorem Traced.advance (h : Traced s m) (u : Bytes) : Traced (s ++ u) (Markup.advance m u) := by
  induction m, u using advance_induction generalizing s with
  | nil m => simpa using h
  | cons m c rest ih =>
      have hrest := ih (h.step c rest)
      rwa [List.append_assoc, List.cons_append, List.take_append_drop, ← advance_cons] at hrest

theorem traced_foldl (texts : List Bytes) :
    Traced texts.flatten (texts.foldl Markup.advance .text) := by
  induction texts using List.reverseRecOn with
  | nil => exact ⟨reaches_nil, by simp [isAttr]⟩
  | append_singleton texts u ih =>
      rw [List.flatten_append, List.foldl_append]
      simpa using ih.advance u

/-! ## The name of a value -/

/-- Whenever a text leaves off before or in the value of an attribute, it writes that attribute in a
tag, and the name taken for it is a name without blanks and `>`, and without `=` but for its first
byte.  It holds a slash exactly if the text writes one in the name. -/
theorem attr_of_isValue (texts : List Bytes)
    (h : (texts.foldl advance .text).isValue = true) :
    let m := texts.foldl advance .text
    ∃ name rest, Writes texts.flatten m name rest ∧ m.attr ≠ [] ∧
      (∀ c ∈ m.attr, Name.isSpace c = false ∧ c ≠ '>'.toUInt8) ∧ '='.toUInt8 ∉ m.attr.tail ∧
      ('/'.toUInt8 ∈ m.attr ↔ '/'.toUInt8 ∈ name) := by
  intro m
  have hattr : m.isAttr = true := by
    revert h
    change m.isValue = true → _
    cases m <;> simp [isValue, isAttr]
  obtain ⟨name, rest, hw⟩ := (traced_foldl texts).writes hattr
  have hread := hw.readAs
  refine ⟨name, rest, hw, hread.ne_nil, fun c hc => ⟨?_, ?_⟩, hread.equals_first,
    hread.mem_iff (by decide)⟩
  · refine Bool.eq_false_iff.2 fun hspace => ?_
    have hname := (hread.mem_iff (x := c) (by simp [endsAttrName, endsElemName, hspace])).1 hc
    exact absurd hspace (by simp [(hread.not_ends c hname).1])
  · rintro rfl
    exact (hread.not_ends _ ((hread.mem_iff (by decide)).1 hc)).2 rfl

def cutLink : List Bytes := ["<a hre", "f=\""]

theorem attr_of_isValue_cutLink :
    (cutLink.foldl advance .text).isValue = true ∧
      ∃ name rest, Writes cutLink.flatten (cutLink.foldl advance .text) name rest := by
  have hvalue : (cutLink.foldl advance .text).isValue = true := by decide_cbv
  obtain ⟨name, rest, hw, -⟩ := attr_of_isValue cutLink hvalue
  exact ⟨hvalue, name, rest, hw⟩

/-- A slash right after the name of an attribute: what follows is taken for the same name, so the
address of this link does not count as one. -/
def slashedLink : Bytes := "<a b/href=\""

theorem attr_slashedLink_slash :
    (¬∀ texts : List Bytes, (texts.foldl advance .text).isValue = true →
      '/'.toUInt8 ∉ (texts.foldl advance .text).attr) ∧
    (advance .text slashedLink).attr = "b/href" ∧ (advance .text slashedLink).holdsUrl = false := by
  have hattr : advance .text slashedLink = .quotedValue ⟨"a", false⟩ "b/href" '"'.toUInt8 := by
    decide_cbv
  refine ⟨fun hreal => ?_, ?_, ?_⟩
  · have hslash := hreal [slashedLink]
    rw [List.foldl_cons, List.foldl_nil, hattr] at hslash
    exact absurd (hslash rfl) (by decide_cbv)
  · rw [hattr]
    rfl
  · rw [hattr]
    decide_cbv

end TagLoom.Markup

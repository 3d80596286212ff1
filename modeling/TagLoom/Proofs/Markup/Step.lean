import TagLoom.Markup

/-!
# Single steps through markup

What one step of `Markup.advance` does at each place, stated byte by byte so that later proofs
need not open `step`.
-/

namespace TagLoom.Markup

@[simp] theorem advance_nil (m : Markup) : advance m [] = m := by
  rw [advance]

theorem advance_cons (m : Markup) (c : UInt8) (rest : Bytes) :
    advance m (c :: rest) = advance (step m c rest).1 (rest.drop (step m c rest).2) := by
  rw [advance]

theorem advance_induction {P : Markup → Bytes → Prop} (nil : ∀ m, P m [])
    (cons : ∀ m c rest, P (step m c rest).1 (rest.drop (step m c rest).2) → P m (c :: rest))
    (m : Markup) (s : Bytes) : P m s := by
  induction m, s using advance.induct with
  | case1 m => exact nil m
  | case2 m c rest next more hstep ih =>
      refine cons m c rest ?_
      rwa [hstep]

theorem advance_keeps {P : Markup → Prop} (hstep : ∀ m c rest, P m → P (step m c rest).1)
    {m : Markup} (h : P m) (s : Bytes) : P (advance m s) := by
  induction m, s using advance_induction with
  | nil m => simpa using h
  | cons m c rest ih =>
      rw [advance_cons]
      exact ih (hstep m c rest h)

theorem foldl_advance_keeps {P : Markup → Prop} (hstep : ∀ m c rest, P m → P (step m c rest).1)
    {m : Markup} (h : P m) (texts : List Bytes) : P (texts.foldl advance m) := by
  induction texts generalizing m with
  | nil => exact h
  | cons s texts ih => exact ih (advance_keeps hstep h s)

/-! ## Text -/

theorem step_text_other {c : UInt8} (rest : Bytes) (hc : c ≠ '<'.toUInt8) :
    step .text c rest = (.text, 0) := by
  have hno : Bytes.startsWith (c :: rest) "<!--" = false := by
    have hstart : Bytes.ofString "<!--" = '<'.toUInt8 :: Bytes.ofString "!--" := by decide
    have hne : ('<'.toUInt8 == c) = false := by
      simpa [beq_eq_false_iff_ne] using fun h : '<'.toUInt8 = c => hc h.symm
    rw [Bytes.startsWith, hstart, List.isPrefixOf, hne, Bool.false_and]
  have hlt : (c == '<'.toUInt8) = false := by simpa using hc
  simp [step, hno, hlt]

@[simp] theorem step_text_lt_nil : step .text '<'.toUInt8 [] = (.text, 0) := by
  decide

theorem step_text_bang (after : Bytes) :
    step .text '<'.toUInt8 ('!'.toUInt8 :: after) =
      if Bytes.startsWith after "--" then (.comment, 3) else (.text, 0) := by
  have hstart : Bytes.startsWith ('<'.toUInt8 :: '!'.toUInt8 :: after) "<!--" =
      Bytes.startsWith after "--" := by
    have hopen : Bytes.ofString "<!--" =
        '<'.toUInt8 :: '!'.toUInt8 :: Bytes.ofString "--" := by decide
    rw [Bytes.startsWith, hopen]
    simp [List.isPrefixOf, Bytes.startsWith]
  have hslash : ('!'.toUInt8 == '/'.toUInt8) = false := by decide
  have hletter : Bytes.isLetter '!'.toUInt8 = false := by decide
  simp [step, hstart, hslash, hletter]

private theorem startsWith_comment_of_ne {d : UInt8} (after : Bytes) (hd : d ≠ '!'.toUInt8) :
    Bytes.startsWith ('<'.toUInt8 :: d :: after) "<!--" = false := by
  have hopen : Bytes.ofString "<!--" =
      '<'.toUInt8 :: '!'.toUInt8 :: Bytes.ofString "--" := by decide
  have hne : ('!'.toUInt8 == d) = false := by
    simpa [beq_eq_false_iff_ne] using fun h : '!'.toUInt8 = d => hd h.symm
  rw [Bytes.startsWith, hopen]
  simp [List.isPrefixOf, hne]

theorem step_text_slash (after : Bytes) :
    step .text '<'.toUInt8 ('/'.toUInt8 :: after) =
      if (after.head?.map Bytes.isLetter).getD false then
        (.tag ⟨Unicode.lowerText (after.takeWhile (!endsElemName ·)), true⟩,
          1 + (after.takeWhile (!endsElemName ·)).length)
      else (.text, 0) := by
  have hno := startsWith_comment_of_ne after (d := '/'.toUInt8) (by decide)
  have hletter : Bytes.isLetter '/'.toUInt8 = false := by decide
  simp [step, hno, hletter]

theorem step_text_name {d : UInt8} (after : Bytes) (hbang : d ≠ '!'.toUInt8)
    (hslash : d ≠ '/'.toUInt8) :
    step .text '<'.toUInt8 (d :: after) =
      if Bytes.isLetter d then
        (.tag ⟨Unicode.lowerText ((d :: after).takeWhile (!endsElemName ·)), false⟩,
          ((d :: after).takeWhile (!endsElemName ·)).length)
      else (.text, 0) := by
  have hno := startsWith_comment_of_ne after hbang
  have hne : (d == '/'.toUInt8) = false := by simpa using hslash
  simp [step, hno, hne]

/-! ## Comments and raw text -/

theorem step_comment_other {c : UInt8} (rest : Bytes) (hc : c ≠ '-'.toUInt8) :
    step .comment c rest = (.comment, 0) := by
  have hno : Bytes.startsWith (c :: rest) "-->" = false := by
    have hstart : Bytes.ofString "-->" = '-'.toUInt8 :: Bytes.ofString "->" := by decide
    have hne : ('-'.toUInt8 == c) = false := by
      simpa [beq_eq_false_iff_ne] using fun h : '-'.toUInt8 = c => hc h.symm
    rw [Bytes.startsWith, hstart, List.isPrefixOf, hne, Bool.false_and]
  simp [step, hno]

theorem step_comment_dash (rest : Bytes) :
    step .comment '-'.toUInt8 rest =
      if Bytes.startsWith rest "->" then (.text, 2) else (.comment, 0) := by
  have hstart : Bytes.startsWith ('-'.toUInt8 :: rest) "-->" = Bytes.startsWith rest "->" := by
    have hclose : Bytes.ofString "-->" = '-'.toUInt8 :: Bytes.ofString "->" := by decide
    rw [Bytes.startsWith, hclose]
    simp [List.isPrefixOf, Bytes.startsWith]
  simp [step, hstart]

theorem step_rawText_other (e : Bytes) {c : UInt8} (rest : Bytes) (hc : c ≠ '<'.toUInt8) :
    step (.rawText e) c rest = (.rawText e, 0) := by
  have hlt : (c == '<'.toUInt8) = false := by simpa using hc
  simp [step, hlt]

@[simp] theorem step_rawText_lt_nil (e : Bytes) :
    step (.rawText e) '<'.toUInt8 [] = (.rawText e, 0) := by
  simp [step]

theorem step_rawText_lt (e : Bytes) (d : UInt8) (after : Bytes) :
    step (.rawText e) '<'.toUInt8 (d :: after) =
      if d = '/'.toUInt8 ∧ Bytes.lowerAscii (after.take e.length) = e then
        (.tag ⟨e, true⟩, 1 + e.length)
      else (.rawText e, 0) := by
  simp [step]

/-! ## Tags -/

theorem not_endsAttrName_iff (c : UInt8) :
    endsAttrName c = false ↔
      Name.isSpace c = false ∧ c ≠ '>'.toUInt8 ∧ c ≠ '/'.toUInt8 ∧ c ≠ '='.toUInt8 := by
  simp [endsAttrName, endsElemName, and_assoc]

theorem step_tag_attr (t : OpenTag) {c : UInt8} (rest : Bytes) (hc : endsAttrName c = false) :
    step (.tag t) c rest =
      (.attrName t (Unicode.lowerText (c :: rest.takeWhile (!endsAttrName ·))),
        (rest.takeWhile (!endsAttrName ·)).length) := by
  obtain ⟨hspace, hgt, hslash, heq⟩ := (not_endsAttrName_iff c).1 hc
  simp [step, hspace, hgt, hslash, heq]

theorem step_afterAttrName_attr (t : OpenTag) (a : Bytes) {c : UInt8} (rest : Bytes)
    (hc : endsAttrName c = false) :
    step (.afterAttrName t a) c rest =
      (.attrName t (Unicode.lowerText (c :: rest.takeWhile (!endsAttrName ·))),
        (rest.takeWhile (!endsAttrName ·)).length) := by
  obtain ⟨hspace, hgt, hslash, heq⟩ := (not_endsAttrName_iff c).1 hc
  simp [step, hspace, hgt, hslash, heq]

theorem step_tag_other (t : OpenTag) {c : UInt8} (rest rest' : Bytes)
    (hc : endsAttrName c = true) : step (.tag t) c rest = step (.tag t) c rest' := by
  simp only [endsAttrName, endsElemName, Bool.or_eq_true, beq_iff_eq] at hc
  rcases hc with ((hspace | rfl) | rfl) | rfl
  · simp [step, hspace]
  · simp [step]
  · simp [step]
  · simp [step]

theorem step_afterAttrName_other (t : OpenTag) (a : Bytes) {c : UInt8} (rest rest' : Bytes)
    (hc : endsAttrName c = true) :
    step (.afterAttrName t a) c rest = step (.afterAttrName t a) c rest' := by
  simp only [endsAttrName, endsElemName, Bool.or_eq_true, beq_iff_eq] at hc
  rcases hc with ((hspace | rfl) | rfl) | rfl
  · simp [step, hspace]
  · simp [step]
  · simp [step]
  · simp [step]

theorem step_tag_ends (t : OpenTag) {c : UInt8} (rest : Bytes) (hc : endsAttrName c = true) :
    (step (.tag t) c rest).2 = 0 := by
  grind [step, not_endsAttrName_iff]

theorem step_afterAttrName_ends (t : OpenTag) (a : Bytes) {c : UInt8} (rest : Bytes)
    (hc : endsAttrName c = true) : (step (.afterAttrName t a) c rest).2 = 0 := by
  grind [step, not_endsAttrName_iff]

theorem step_attrName_grow (t : OpenTag) (a : Bytes) {c : UInt8} (rest : Bytes)
    (hc : endsAttrName c = false) :
    step (.attrName t a) c rest = (.attrName t (a ++ attrByte c), 0) := by
  obtain ⟨hspace, hgt, -, heq⟩ := (not_endsAttrName_iff c).1 hc
  simp [step, hspace, hgt, heq]

end TagLoom.Markup

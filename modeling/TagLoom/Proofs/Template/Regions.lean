import TagLoom.Template.Token

/-!
# Regions copied as they stand

The reader of templates copies comments and the content of `script` and `style` elements as they
stand.  `cuts` gives, for each text between two other tokens of a source, the stretches it was
made of, each with the region it is when it is one.  Without backslashes a brace can only get into
a text through a region.
-/

namespace TagLoom.Template

inductive Region where
  | comment
  | rawText (name : Bytes)
deriving DecidableEq

structure Stretch where
  region : Option Region
  text : Bytes
deriving DecidableEq

def spell (ss : List Stretch) : Bytes := ss.flatMap (·.text)

/-- Puts a stretch before the first text. -/
def consStretch (st : Stretch) : List (List Stretch) → List (List Stretch)
  | ss :: rest => (st :: ss) :: rest
  | [] => [[st]]

mutual

def cutFrom (raw : Option RawText) (offset : Nat) : Bytes → List (List Stretch)
  | [] => [[]]
  | c :: rest =>
      let s := c :: rest
      match raw with
      | some r =>
          if r.start ≤ offset then
            let n := indexFold ("</" ++ r.name) s
            consStretch ⟨some (.rawText r.name), s.take n⟩ (cutFrom none (offset + n) (s.drop n))
          else cutMarkup raw offset c rest
      | none => cutMarkup raw offset c rest
  termination_by s => (s.length, if raw.isSome then 2 else 1)
  decreasing_by
    · simp only [List.length_drop, List.length_cons]
      by_cases hn : indexFold ("</" ++ r.name) (c :: rest) = 0
      · rw [hn]; simp [Prod.lex_def]
      · simp [Prod.lex_def]; omega
    · simp_all [Prod.lex_def]
    · simp_all [Prod.lex_def]

def cutMarkup (raw : Option RawText) (offset : Nat) (c : UInt8) (rest : Bytes) :
    List (List Stretch) :=
  let s := c :: rest
  if c == '\\'.toUInt8 && rest.head? == some '\x7b'.toUInt8 then
    consStretch ⟨none, "\x7b"⟩ (cutFrom raw (offset + 2) (rest.drop 1))
  else if c == '\x7b'.toUInt8 then
    let n := (Scan.braces true s).1
    [] :: cutFrom raw (offset + n + 1) (rest.drop n)
  else if Bytes.startsWith s "<!--" then
    let n := commentLength s
    consStretch ⟨some .comment, s.take n⟩ (cutFrom raw (offset + n) (rest.drop (n - 1)))
  else if Bytes.startsWith s "</" then
    let name := Name.leading (rest.drop 1)
    if Name.isActive name then
      let after := (rest.drop 1).drop name.length
      let gap := (after.takeWhile Name.isSpace).length
      let closed := (after.drop gap).head? == some '>'.toUInt8
      let n := 2 + name.length + gap + (if closed then 1 else Scan.tagEnd (after.drop gap))
      [] :: cutFrom raw (offset + n) (rest.drop (n - 1))
    else consStretch ⟨none, "<"⟩ (cutFrom raw (offset + 1) rest)
  else if c == '<'.toUInt8 then
    let name := Name.leading rest
    let n := 1 + name.length
    if Name.isActive name then
      let tail := lexAttrs (offset + n) (s.drop n)
      [] :: cutFrom raw (offset + n + tail.length) (rest.drop (n + tail.length - 1))
    else
      let lower := Bytes.lowerAscii name
      let raw := if isRawElement lower then
          some ⟨lower, offset + n + Scan.tagEnd (s.drop n)⟩
        else raw
      consStretch ⟨none, s.take n⟩ (cutFrom raw (offset + n) (rest.drop (n - 1)))
  else consStretch ⟨none, [c]⟩ (cutFrom raw (offset + 1) rest)
  termination_by (rest.length + 1, 0)
  decreasing_by
    all_goals simp only [List.length_drop, Prod.lex_def]; omega

end

def cuts (source : Bytes) : List (List Stretch) := cutFrom none 0 source

/-! ## Texts between other tokens -/

def textsOf : List Token → List Bytes
  | [] => [[]]
  | .text _ s :: ts =>
      match textsOf ts with
      | t :: rest => (s ++ t) :: rest
      | [] => [s]
  | _ :: ts => [] :: textsOf ts

def isText : Token → Bool
  | .text _ _ => true
  | _ => false

/-- No two texts stand next to each other. -/
def Sparse : List Token → Prop
  | [] => True
  | t :: ts => (isText t = true → ∀ u ∈ ts.head?, isText u = false) ∧ Sparse ts

theorem textsOf_ne_nil (ts : List Token) : textsOf ts ≠ [] := by
  cases ts with
  | nil => simp [textsOf]
  | cons t ts =>
      cases t with
      | text offset s =>
          simp only [textsOf]
          split <;> simp
      | _ => simp [textsOf]

def consHead (piece : Bytes) : List Bytes → List Bytes
  | t :: rest => (piece ++ t) :: rest
  | [] => [piece]

theorem textsOf_text (offset : Nat) (s : Bytes) (ts : List Token) :
    textsOf (.text offset s :: ts) = consHead s (textsOf ts) := by
  simp only [textsOf]
  cases textsOf ts <;> rfl

theorem consHead_consHead (a b : Bytes) (texts : List Bytes) :
    consHead a (consHead b texts) = consHead (a ++ b) texts := by
  cases texts <;> simp [consHead]

theorem consHead_nil {texts : List Bytes} (h : texts ≠ []) : consHead [] texts = texts := by
  cases texts with
  | nil => exact absurd rfl h
  | cons t rest => rfl

theorem map_spell_consStretch (st : Stretch) (cs : List (List Stretch)) :
    (consStretch st cs).map spell = consHead st.text (cs.map spell) := by
  cases cs <;> simp [consStretch, consHead, spell]

theorem textsOf_consText (offset : Nat) (piece : Bytes) (ts : List Token) :
    textsOf (consText offset piece ts) = consHead piece (textsOf ts) := by
  unfold consText
  split
  · rw [textsOf_text, textsOf_text, consHead_consHead]
  · split
    · rename_i hempty
      rw [List.isEmpty_iff.1 hempty, consHead_nil (textsOf_ne_nil _)]
    · rw [textsOf_text]

theorem sparse_consText (offset : Nat) (piece : Bytes) {ts : List Token} (h : Sparse ts) :
    Sparse (consText offset piece ts) := by
  unfold consText
  split
  · exact ⟨fun _ => h.1 rfl, h.2⟩
  · rename_i hhead
    split
    · exact h
    · refine ⟨fun _ u hu => ?_, h⟩
      cases ts with
      | nil => simp at hu
      | cons t ts =>
          have ht : t = u := by simpa using hu
          subst ht
          cases t with
          | text o s => exact absurd rfl (hhead o s ts)
          | _ => rfl

theorem textsOf_other {t : Token} (ht : isText t = false) (ts : List Token) :
    textsOf (t :: ts) = [] :: textsOf ts := by
  cases t with
  | text offset s => simp [isText] at ht
  | _ => rfl

/-- Texts that do not stand next to each other are the texts between other tokens. -/
theorem mem_textsOf {offset : Nat} {s : Bytes} : ∀ {ts : List Token}, Sparse ts →
    Token.text offset s ∈ ts → s ∈ textsOf ts
  | [], _, hs => by simp at hs
  | [t], _, hs => by
      rw [← List.mem_singleton.1 hs]
      simp [textsOf]
  | t :: u :: ts, h, hs => by
      cases ht : isText t with
      | false =>
          have hne : Token.text offset s ≠ t := by
            rintro rfl
            simp [isText] at ht
          have htail := mem_textsOf h.2 ((List.mem_cons.1 hs).resolve_left hne)
          rw [textsOf_other ht]
          exact List.mem_cons_of_mem _ htail
      | true =>
          have hu : isText u = false := h.1 ht u (by simp)
          have hne : Token.text offset s ≠ u := by
            rintro rfl
            simp [isText] at hu
          cases t with
          | text o s' =>
              rw [textsOf_text, textsOf_other hu, consHead]
              rcases List.mem_cons.1 hs with heq | hs
              · cases heq
                simp
              · have htail := mem_textsOf h.2.2 ((List.mem_cons.1 hs).resolve_left hne)
                exact List.mem_cons_of_mem _ htail
          | _ => simp [isText] at ht

/-! ## Tokens and stretches -/

def Agree (ts : List Token) (cs : List (List Stretch)) : Prop :=
  textsOf ts = cs.map spell ∧ Sparse ts

theorem Agree.consText {ts : List Token} {cs : List (List Stretch)} (h : Agree ts cs)
    (offset : Nat) (st : Stretch) :
    Agree (Template.consText offset st.text ts) (consStretch st cs) := by
  refine ⟨?_, sparse_consText offset st.text h.2⟩
  rw [textsOf_consText, map_spell_consStretch, h.1]

theorem Agree.consOther {ts : List Token} {cs : List (List Stretch)} (h : Agree ts cs)
    {t : Token} (ht : isText t = false) : Agree (t :: ts) ([] :: cs) := by
  refine ⟨?_, fun hc => by simp [ht] at hc, h.2⟩
  rw [textsOf_other ht, h.1]
  rfl

theorem lexFrom_of_rawText {r : RawText} {offset : Nat} (h : r.start ≤ offset) (c : UInt8)
    (rest : Bytes) :
    lexFrom (some r) offset (c :: rest) =
      consText offset ((c :: rest).take (indexFold ("</" ++ r.name) (c :: rest)))
        (lexFrom none (offset + indexFold ("</" ++ r.name) (c :: rest))
          ((c :: rest).drop (indexFold ("</" ++ r.name) (c :: rest)))) := by
  rw [lexFrom.eq_def]
  exact if_pos h

theorem lexFrom_of_markup {raw : Option RawText} {offset : Nat}
    (h : ∀ r, raw = some r → ¬ r.start ≤ offset) (c : UInt8) (rest : Bytes) :
    lexFrom raw offset (c :: rest) = lexMarkup raw offset c rest := by
  rw [lexFrom.eq_def]
  cases raw with
  | none => rfl
  | some r => exact if_neg (h r rfl)

theorem cutFrom_of_rawText {r : RawText} {offset : Nat} (h : r.start ≤ offset) (c : UInt8)
    (rest : Bytes) :
    cutFrom (some r) offset (c :: rest) =
      consStretch
        ⟨some (.rawText r.name), (c :: rest).take (indexFold ("</" ++ r.name) (c :: rest))⟩
        (cutFrom none (offset + indexFold ("</" ++ r.name) (c :: rest))
          ((c :: rest).drop (indexFold ("</" ++ r.name) (c :: rest)))) := by
  rw [cutFrom.eq_def]
  exact if_pos h

theorem cutFrom_of_markup {raw : Option RawText} {offset : Nat}
    (h : ∀ r, raw = some r → ¬ r.start ≤ offset) (c : UInt8) (rest : Bytes) :
    cutFrom raw offset (c :: rest) = cutMarkup raw offset c rest := by
  rw [cutFrom.eq_def]
  cases raw with
  | none => rfl
  | some r => exact if_neg (h r rfl)

/-- Induction along a reading: raw text is passed over first, and where it ends right here, the
same text is read as markup. -/
theorem from_induction {P : Option RawText → Nat → Bytes → Prop}
    (nil : ∀ raw offset, P raw offset [])
    (markup : ∀ raw offset c rest, (∀ r, raw = some r → ¬ r.start ≤ offset) →
      (∀ raw offset s, s <:+ rest → P raw offset s) → P raw offset (c :: rest))
    (rawText : ∀ (r : RawText) offset c rest, r.start ≤ offset →
      (∀ offset s, s <:+ c :: rest → P none offset s) → P (some r) offset (c :: rest))
    (raw : Option RawText) (offset : Nat) (s : Bytes) : P raw offset s := by
  suffices h : ∀ raw offset t, t <:+ s → P raw offset t from h raw offset s (List.suffix_refl s)
  induction s with
  | nil =>
      intro raw offset t ht
      rw [List.suffix_nil.1 ht]
      exact nil raw offset
  | cons c rest ih =>
      have hnone (offset : Nat) (t : Bytes) (ht : t <:+ c :: rest) : P none offset t := by
        rcases List.suffix_cons_iff.1 ht with rfl | ht
        · exact markup none offset c rest nofun ih
        · exact ih none offset t ht
      intro raw offset t ht
      rcases List.suffix_cons_iff.1 ht with rfl | ht
      · cases raw with
        | none => exact hnone offset _ (List.suffix_refl _)
        | some r =>
            by_cases hstart : r.start ≤ offset
            · exact rawText r offset c rest hstart hnone
            · refine markup (some r) offset c rest (fun r' hr => ?_) ih
              cases hr
              exact hstart
      · exact ih raw offset t ht

private theorem agree_lexMarkup (raw : Option RawText) (offset : Nat) (c : UInt8) {rest : Bytes}
    (ih : ∀ raw offset s, s <:+ rest → Agree (lexFrom raw offset s) (cutFrom raw offset s)) :
    Agree (lexMarkup raw offset c rest) (cutMarkup raw offset c rest) := by
  have hdrop (raw : Option RawText) (offset n : Nat) := ih raw offset _ (List.drop_suffix n rest)
  have hrest := ih raw (offset + 1) rest (List.suffix_refl rest)
  rw [lexMarkup, cutMarkup]
  split
  · exact (hdrop raw _ _).consText offset ⟨none, "\x7b"⟩
  split
  · cases hbraces : Scan.braces true (c :: rest) with
    | mk n ok =>
        cases ok with
        | true => exact (hdrop raw _ _).consOther rfl
        | false => exact (hdrop raw _ _).consOther rfl
  split
  · exact (hdrop raw _ _).consText offset ⟨some .comment, _⟩
  split
  · dsimp only
    split
    · exact (hdrop raw _ _).consOther rfl
    · exact hrest.consText offset ⟨none, "<"⟩
  split
  · dsimp only
    split
    · exact (hdrop raw _ _).consOther rfl
    · exact (hdrop _ _ _).consText offset ⟨none, _⟩
  · exact hrest.consText offset ⟨none, [c]⟩

theorem agree_lexFrom (raw : Option RawText) (offset : Nat) (s : Bytes) :
    Agree (lexFrom raw offset s) (cutFrom raw offset s) := by
  induction raw, offset, s using from_induction with
  | nil raw offset => simp [lexFrom, cutFrom, Agree, textsOf, spell, Sparse]
  | markup raw offset c rest hraw ih =>
      rw [lexFrom_of_markup hraw, cutFrom_of_markup hraw]
      exact agree_lexMarkup raw offset c ih
  | rawText r offset c rest hstart ih =>
      rw [lexFrom_of_rawText hstart, cutFrom_of_rawText hstart]
      exact (ih _ _ (List.drop_suffix _ _)).consText offset ⟨some (.rawText r.name), _⟩

theorem exists_cut_of_text {source : Bytes} {offset : Nat} {s : Bytes}
    (h : Token.text offset s ∈ lex source) : ∃ ss ∈ cuts source, spell ss = s := by
  have hagree := agree_lexFrom none 0 source
  have hmem : s ∈ textsOf (lex source) := mem_textsOf hagree.2 h
  rw [lex, hagree.1] at hmem
  exact List.mem_map.1 hmem

/-! ## What regions hold -/

/-- The start of a region: a comment from its opening mark up to before its closing mark, raw text
up to before the end tag of its element. -/
def Region.Holds : Region → Bytes → Prop
  | .comment, s => ∃ c, s = Bytes.ofString "<!--" ++ c ∧ ¬ Bytes.ofString "-->" <:+: c
  | .rawText name, s => ¬ (Bytes.ofString "</" ++ name) <:+: Bytes.lowerAscii s

/-- Raw text is that of an element with raw text. -/
def Region.Named : Region → Prop
  | .comment => True
  | .rawText name => isRawElement name = true

theorem not_infix_take_indexFold (needle : Bytes) (s : Bytes) (hne : needle ≠ []) :
    ¬ needle <:+: Bytes.lowerAscii (s.take (indexFold needle s)) := by
  induction s with
  | nil => simpa [indexFold, Bytes.lowerAscii] using hne
  | cons c rest ih =>
      rw [indexFold]
      split
      · simpa [Bytes.lowerAscii] using hne
      · rename_i hno
        rw [List.take_succ_cons, Bytes.lowerAscii, List.map_cons, List.infix_cons_iff]
        rintro (hstart | hinside)
        · refine hno ?_
          rw [Bytes.startsWith, List.isPrefixOf_iff_prefix, Bytes.lowerAscii, List.map_take]
          have hfull : needle <+: (c :: rest).map Bytes.lowerByte := by
            refine hstart.trans ?_
            rw [List.map_cons]
            exact (List.prefix_cons_inj _).2 ((List.take_prefix _ _).map _)
          exact List.prefix_take_iff.2 ⟨hfull, Nat.le_refl _⟩
        · exact ih hinside

theorem indexOf?_cons (c : UInt8) (rest needle : Bytes) :
    Bytes.indexOf? (c :: rest) needle =
      if Bytes.startsWith (c :: rest) needle then some 0
      else (Bytes.indexOf? rest needle).map (· + 1) := by
  rw [Bytes.indexOf?]

theorem indexOf?_eq_some {s needle : Bytes} (hne : needle ≠ []) {i : Nat}
    (h : Bytes.indexOf? s needle = some i) :
    ¬ needle <:+: s.take i ∧ needle <+: s.drop i := by
  induction s generalizing i with
  | nil =>
      rw [Bytes.indexOf?] at h
      cases needle with
      | nil => exact absurd rfl hne
      | cons d needle => simp [Bytes.startsWith] at h
  | cons c rest ih =>
      rw [indexOf?_cons] at h
      split at h
      · rename_i hstart
        cases h
        exact ⟨by simpa using hne, List.isPrefixOf_iff_prefix.1 hstart⟩
      · rename_i hno
        obtain ⟨j, hj, rfl⟩ := Option.map_eq_some_iff.1 h
        obtain ⟨htake, hdrop⟩ := ih hj
        refine ⟨?_, hdrop⟩
        rw [List.take_succ_cons, List.infix_cons_iff]
        rintro (hstart | hinside)
        · refine hno (List.isPrefixOf_iff_prefix.2 (hstart.trans ?_))
          exact (List.prefix_cons_inj _).2 (List.take_prefix _ _)
        · exact htake hinside

theorem indexOf?_eq_none {s needle : Bytes} (hne : needle ≠ [])
    (h : Bytes.indexOf? s needle = none) : ¬ needle <:+: s := by
  induction s with
  | nil => simpa using hne
  | cons c rest ih =>
      rw [indexOf?_cons] at h
      split at h
      · cases h
      · rename_i hno
        rw [List.infix_cons_iff]
        rintro (hstart | hinside)
        · exact hno (List.isPrefixOf_iff_prefix.2 hstart)
        · exact ih (by simpa using h) hinside

/-- A text cut at a byte that is not in the given start is cut after that start. -/
private theorem append_eq_append_cons {a b t₁ t₂ : Bytes} {c : UInt8} (h : a ++ b = t₁ ++ c :: t₂)
    (hc : c ∉ a) : ∃ t, t₁ = a ++ t ∧ b = t ++ c :: t₂ := by
  rcases List.append_eq_append_iff.1 h with ⟨t, ht, hb⟩ | ⟨t, ha, hrest⟩
  · exact ⟨t, ht, hb⟩
  · cases t with
    | nil =>
        refine ⟨[], ?_, ?_⟩
        · simpa using ha.symm
        · simpa using hrest.symm
    | cons d t =>
        have hd : d = c := by
          have hhead := congrArg List.head? hrest
          simpa using hhead.symm
        exact absurd (by rw [ha, hd]; simp) hc

private theorem exists_body_of_comment {s t₁ t₂ : Bytes} (hstart : Bytes.startsWith s "<!--" = true)
    (h : s.take (commentLength s) = t₁ ++ '\x7b'.toUInt8 :: t₂) :
    Region.Holds .comment t₁ := by
  obtain ⟨x, rfl⟩ := List.isPrefixOf_iff_prefix.1 hstart
  have hopen : ('\x7b'.toUInt8 : UInt8) ∉ Bytes.ofString "<!--" := by decide
  have hclose : ('\x7b'.toUInt8 : UInt8) ∉ Bytes.ofString "-->" := by decide
  have hne : Bytes.ofString "-->" ≠ [] := by decide
  have hdrop : (Bytes.ofString "<!--" ++ x).drop 4 = x := rfl
  rw [commentLength, hdrop] at h
  split at h
  · rename_i i hi
    obtain ⟨hnot, y, hy⟩ := indexOf?_eq_some hne hi
    have hx : x = x.take i ++ (Bytes.ofString "-->" ++ y) := by
      rw [hy, List.take_append_drop]
    have hlen : (x.take i).length = i := by
      have hfull := congrArg List.length hy
      have hthree : (Bytes.ofString "-->").length = 3 := by decide
      rw [List.length_append, List.length_drop, hthree] at hfull
      rw [List.length_take]
      omega
    have htake : (Bytes.ofString "<!--" ++ x).take (i + 7) =
        Bytes.ofString "<!--" ++ (x.take i ++ Bytes.ofString "-->") := by
      generalize x.take i = z at hx hlen
      have hcount : (Bytes.ofString "<!--" ++ (z ++ Bytes.ofString "-->")).length = i + 7 := by
        rw [List.length_append, List.length_append, hlen]
        change 4 + (i + 3) = i + 7
        omega
      rw [hx, ← List.append_assoc z, ← List.append_assoc, List.take_left' hcount]
    rw [htake] at h
    obtain ⟨t, ht, hrest⟩ := append_eq_append_cons h hopen
    refine ⟨t, ht, fun hinside => hnot ?_⟩
    rcases List.append_eq_append_iff.1 hrest with ⟨u, hu, hmark⟩ | ⟨u, hu, -⟩
    · exact absurd (by rw [hmark]; simp) hclose
    · rw [hu]
      exact hinside.trans (List.prefix_append t u).isInfix
  · rename_i hnone
    rw [List.take_length] at h
    obtain ⟨t, ht, hrest⟩ := append_eq_append_cons h hopen
    refine ⟨t, ht, fun hinside => indexOf?_eq_none hne hnone ?_⟩
    rw [hrest]
    exact hinside.trans (List.prefix_append t _).isInfix

/-- A brace stands in a region only, and what stands before it there is the start of the region. -/
def Stretch.Sound (st : Stretch) : Prop :=
  match st.region with
  | none => '\x7b'.toUInt8 ∉ st.text
  | some k => k.Named ∧ ∀ t₁ t₂, st.text = t₁ ++ '\x7b'.toUInt8 :: t₂ → k.Holds t₁

private theorem sound_comment {s : Bytes} (hstart : Bytes.startsWith s "<!--" = true) :
    Stretch.Sound ⟨some .comment, s.take (commentLength s)⟩ :=
  ⟨trivial, fun _ _ h => exists_body_of_comment hstart h⟩

private theorem sound_rawText {name : Bytes} (hname : isRawElement name = true) (s : Bytes) :
    Stretch.Sound ⟨some (.rawText name), s.take (indexFold ("</" ++ name) s)⟩ := by
  refine ⟨hname, fun t₁ t₂ h hinside => ?_⟩
  have hne : Bytes.ofString "</" ++ name ≠ [] :=
    List.append_ne_nil_of_left_ne_nil (by decide) name
  have hnot := not_infix_take_indexFold (Bytes.ofString "</" ++ name) s hne
  have htext : s.take (indexFold ("</" ++ name) s) = t₁ ++ '\x7b'.toUInt8 :: t₂ := h
  rw [htext] at hnot
  refine hnot (hinside.trans ?_)
  rw [Bytes.lowerAscii, Bytes.lowerAscii, List.map_append]
  exact (List.prefix_append _ _).isInfix

private theorem brace_notMem_leading (s : Bytes) : '\x7b'.toUInt8 ∉ Name.leading s := by
  have hpart : Name.isPart '\x7b'.toUInt8 = false := by decide
  have hstart : Name.isStart '\x7b'.toUInt8 = false := by decide
  cases s with
  | nil => simp [Name.leading]
  | cons c rest =>
      rw [Name.leading]
      split
      · rename_i hc
        rintro (_ | ⟨_, hmem⟩)
        · rw [hstart] at hc
          contradiction
        · have hall := List.all_eq_true.1 List.all_takeWhile _ hmem
          rw [hpart] at hall
          contradiction
      · simp

theorem leading_starts (s : Bytes) : Name.leading s <+: s := by
  cases s with
  | nil => simp [Name.leading]
  | cons c rest =>
      rw [Name.leading]
      split
      · exact (List.prefix_cons_inj c).2 (List.takeWhile_prefix _)
      · exact List.nil_prefix

private theorem sound_name (c : UInt8) (rest : Bytes) (hc : c ≠ '\x7b'.toUInt8) :
    Stretch.Sound ⟨none, (c :: rest).take (1 + (Name.leading rest).length)⟩ := by
  change '\x7b'.toUInt8 ∉ (c :: rest).take (1 + (Name.leading rest).length)
  rw [Nat.add_comm 1, List.take_succ_cons, ← List.prefix_iff_eq_take.1 (leading_starts rest)]
  rintro (_ | ⟨_, hmem⟩)
  · exact hc rfl
  · exact brace_notMem_leading rest hmem

/-- The elements the reader is to treat as raw text are those with raw text. -/
def RawText.Named (raw : Option RawText) : Prop := ∀ r, raw = some r → isRawElement r.name = true

private theorem mem_consStretch {st : Stretch} {cs : List (List Stretch)} (hst : st.Sound)
    (hcs : ∀ ss ∈ cs, ∀ u ∈ ss, u.Sound) : ∀ ss ∈ consStretch st cs, ∀ u ∈ ss, u.Sound := by
  intro ss hss u hu
  cases cs with
  | nil =>
      rw [consStretch, List.mem_singleton] at hss
      rw [hss, List.mem_singleton] at hu
      rw [hu]
      exact hst
  | cons first rest =>
      rcases List.mem_cons.1 hss with rfl | hss
      · rcases List.mem_cons.1 hu with rfl | hu
        · exact hst
        · exact hcs first (by simp) u hu
      · exact hcs ss (by simp [hss]) u hu

private theorem mem_consNil {cs : List (List Stretch)} (hcs : ∀ ss ∈ cs, ∀ u ∈ ss, u.Sound) :
    ∀ ss ∈ [] :: cs, ∀ u ∈ ss, u.Sound := by
  intro ss hss u hu
  rcases List.mem_cons.1 hss with rfl | hss
  · simp at hu
  · exact hcs ss hss u hu

def CutsSound (raw : Option RawText) (offset : Nat) (s : Bytes) : Prop :=
  RawText.Named raw → '\\'.toUInt8 ∉ s → ∀ ss ∈ cutFrom raw offset s, ∀ u ∈ ss, u.Sound

private theorem sound_cutMarkup {raw : Option RawText} {offset : Nat} {c : UInt8} {rest : Bytes}
    (ih : ∀ raw offset s, s <:+ rest → CutsSound raw offset s) (hraw : RawText.Named raw)
    (hs : '\\'.toUInt8 ∉ c :: rest) : ∀ ss ∈ cutMarkup raw offset c rest, ∀ u ∈ ss, u.Sound := by
  have hrest : '\\'.toUInt8 ∉ rest := fun h => hs (List.mem_cons_of_mem _ h)
  have htail (raw : Option RawText) (hraw : RawText.Named raw) (offset : Nat) {t : Bytes}
      (ht : t <:+ rest) := ih raw offset t ht hraw fun h => hrest (ht.subset h)
  have hdrop (offset n : Nat) := htail raw hraw offset (List.drop_suffix n rest)
  rw [cutMarkup]
  split
  · rename_i hc
    have hslash : c = '\\'.toUInt8 := by
      have hboth := (Bool.and_eq_true_iff.1 hc).1
      simpa using hboth
    exact absurd (by simp [hslash]) hs
  split
  · exact mem_consNil (hdrop _ _)
  rename_i hbrace
  split
  · rename_i hstart
    exact mem_consStretch (sound_comment hstart) (hdrop _ _)
  have hlt : Stretch.Sound ⟨none, "<"⟩ := by
    change '\x7b'.toUInt8 ∉ Bytes.ofString "<"
    decide
  split
  · dsimp only
    split
    · exact mem_consNil (hdrop _ _)
    · exact mem_consStretch hlt (htail raw hraw _ (List.suffix_refl rest))
  split
  · dsimp only
    split
    · exact mem_consNil (hdrop _ _)
    · refine mem_consStretch ?_ (htail _ ?_ _ (List.drop_suffix _ _))
      · exact sound_name c rest (by simpa using hbrace)
      · intro r hr
        split at hr
        · rename_i hname
          cases hr
          exact hname
        · exact hraw r hr
  · refine mem_consStretch ?_ (htail raw hraw _ (List.suffix_refl rest))
    intro hmem
    have hc : '\x7b'.toUInt8 = c := by simpa using hmem
    simp [hc] at hbrace

private theorem sound_cutFrom (raw : Option RawText) (offset : Nat) (s : Bytes) :
    CutsSound raw offset s := by
  induction raw, offset, s using from_induction with
  | nil raw offset => simp [CutsSound, cutFrom]
  | markup raw offset c rest hraw ih =>
      intro hnamed hs
      rw [cutFrom_of_markup hraw]
      exact sound_cutMarkup ih hnamed hs
  | rawText r offset c rest hstart ih =>
      intro hnamed hs
      rw [cutFrom_of_rawText hstart]
      refine mem_consStretch (sound_rawText (hnamed r rfl) _) ?_
      exact ih _ _ (List.drop_suffix _ _) nofun fun h => hs (List.mem_of_mem_drop h)

theorem sound_of_mem_cuts {source : Bytes} (hsource : '\\'.toUInt8 ∉ source) {ss : List Stretch}
    (hss : ss ∈ cuts source) {st : Stretch} (hst : st ∈ ss) : st.Sound :=
  sound_cutFrom none 0 source (by simp [RawText.Named]) hsource ss hss st hst

/-! ## Leading blanks -/

/-- The stretches without the blanks at their start. -/
def trimStretches : List Stretch → List Stretch
  | [] => []
  | st :: ss =>
      if Name.isBlank st.text then trimStretches ss
      else ⟨st.region, st.text.dropWhile Name.isSpace⟩ :: ss

theorem dropWhile_append_of_isBlank {s : Bytes} (h : Name.isBlank s = true) (t : Bytes) :
    (s ++ t).dropWhile Name.isSpace = t.dropWhile Name.isSpace :=
  List.dropWhile_append_of_pos (List.all_eq_true.1 h)

theorem dropWhile_append_of_not_isBlank {s : Bytes} (h : Name.isBlank s = false) (t : Bytes) :
    (s ++ t).dropWhile Name.isSpace = s.dropWhile Name.isSpace ++ t := by
  induction s with
  | nil => simp [Name.isBlank] at h
  | cons c s ih =>
      cases hc : Name.isSpace c with
      | false => simp [hc]
      | true =>
          have hs : Name.isBlank s = false := by simpa [Name.isBlank, hc] using h
          simpa [hc] using ih hs

theorem spell_trimStretches (ss : List Stretch) :
    spell (trimStretches ss) = (spell ss).dropWhile Name.isSpace := by
  induction ss with
  | nil => simp [trimStretches, spell]
  | cons st ss ih =>
      rw [trimStretches]
      split
      · rename_i hblank
        rw [ih]
        exact (dropWhile_append_of_isBlank hblank _).symm
      · rename_i hblank
        exact (dropWhile_append_of_not_isBlank (by simpa using hblank) _).symm

theorem isBlank_dropWhile {s : Bytes} (h : Name.isBlank s = false) :
    Name.isBlank (s.dropWhile Name.isSpace) = false ∧
      (s.dropWhile Name.isSpace).dropWhile Name.isSpace = s.dropWhile Name.isSpace := by
  induction s with
  | nil => simp [Name.isBlank] at h
  | cons c s ih =>
      cases hc : Name.isSpace c with
      | false => simp [hc, Name.isBlank]
      | true =>
          have hs : Name.isBlank s = false := by simpa [Name.isBlank, hc] using h
          simpa [hc] using ih hs

theorem trimStretches_trimStretches (ss : List Stretch) :
    trimStretches (trimStretches ss) = trimStretches ss := by
  induction ss with
  | nil => rfl
  | cons st ss ih =>
      rw [trimStretches]
      split
      · exact ih
      · rename_i hblank
        obtain ⟨hrest, hsame⟩ := isBlank_dropWhile (by simpa using hblank : _ = false)
        rw [trimStretches, if_neg (by simp [hrest]), hsame]

private theorem holds_of_blanks {k : Region} {blanks t : Bytes} (hblanks : Name.isBlank blanks = true)
    (h : k.Holds (blanks ++ t)) : k.Holds t := by
  cases k with
  | comment =>
      obtain ⟨c, hc, hnot⟩ := h
      cases blanks with
      | nil => exact ⟨c, hc, hnot⟩
      | cons b blanks =>
          have hb : b = '<'.toUInt8 := by
            have hhead := congrArg List.head? hc
            have hmark : Bytes.ofString "<!--" = '<'.toUInt8 :: Bytes.ofString "!--" := by decide
            simpa [hmark] using hhead
          rw [hb] at hblanks
          simp [Name.isBlank] at hblanks
          exact absurd hblanks.1 (by decide)
  | rawText name =>
      intro hinside
      refine h (hinside.trans ?_)
      rw [Bytes.lowerAscii, Bytes.lowerAscii, List.map_append]
      exact (List.suffix_append _ _).isInfix

theorem Stretch.Sound.dropWhile {st : Stretch} (h : st.Sound) :
    Stretch.Sound ⟨st.region, st.text.dropWhile Name.isSpace⟩ := by
  have hsplit : st.text = st.text.takeWhile Name.isSpace ++ st.text.dropWhile Name.isSpace :=
    List.takeWhile_append_dropWhile.symm
  obtain ⟨region, text⟩ := st
  cases region with
  | none => exact fun hmem => h ((List.dropWhile_suffix _).subset hmem)
  | some k =>
      refine ⟨h.1, fun t₁ t₂ heq => ?_⟩
      have hblank : Name.isBlank (text.takeWhile Name.isSpace) = true := List.all_takeWhile
      refine holds_of_blanks hblank (h.2 (text.takeWhile Name.isSpace ++ t₁) t₂ ?_)
      change text.dropWhile Name.isSpace = _ at heq
      rw [List.append_assoc, ← heq]
      exact hsplit

theorem sound_trimStretches {ss : List Stretch} (h : ∀ st ∈ ss, st.Sound) :
    ∀ st ∈ trimStretches ss, st.Sound := by
  induction ss with
  | nil => simp [trimStretches]
  | cons st ss ih =>
      rw [trimStretches]
      split
      · exact ih fun u hu => h u (by simp [hu])
      · intro u hu
        rcases List.mem_cons.1 hu with rfl | hu
        · exact (h st (by simp)).dropWhile
        · exact h u (by simp [hu])

theorem exists_stretch {ss : List Stretch} {s₁ s₂ : Bytes} {c : UInt8}
    (h : spell ss = s₁ ++ c :: s₂) :
    ∃ before st after t₁ t₂, ss = before ++ st :: after ∧ st.text = t₁ ++ c :: t₂ ∧
      s₁ = spell before ++ t₁ := by
  induction ss generalizing s₁ with
  | nil => simp [spell] at h
  | cons st ss ih =>
      have hsplit : st.text ++ spell ss = s₁ ++ c :: s₂ := h
      rcases List.append_eq_append_iff.1 hsplit with ⟨t, hs, hrest⟩ | ⟨t, htext, hrest⟩
      · obtain ⟨before, st', after, t₁, t₂, hss, htext, ht⟩ := ih hrest
        refine ⟨st :: before, st', after, t₁, t₂, by rw [hss]; rfl, htext, ?_⟩
        rw [hs, ht, ← List.append_assoc]
        rfl
      · cases t with
        | nil =>
            have hrest' : spell ss = [] ++ c :: s₂ := by simpa using hrest.symm
            obtain ⟨before, st', after, t₁, t₂, hss, htext', ht⟩ := ih hrest'
            refine ⟨st :: before, st', after, t₁, t₂, by rw [hss]; rfl, htext', ?_⟩
            have hnil : spell before ++ t₁ = [] := ht.symm
            change s₁ = (st.text ++ spell before) ++ t₁
            rw [List.append_assoc, hnil, List.append_nil, htext, List.append_nil]
        | cons d t =>
            have hd : c = d ∧ s₂ = t ++ spell ss := by simpa using hrest
            exact ⟨[], st, ss, s₁, t, rfl, by rw [htext, hd.1], rfl⟩

end TagLoom.Template

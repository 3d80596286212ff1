import TagLoom.Proofs.Template.Enclosed
import TagLoom.Proofs.Template.Offset

/-!
# Lexemes by offset

The lexeme that stands at an offset, every byte and every part of it looked up in the whole source.
-/

namespace TagLoom.Template

/-- A lexeme, the offset behind it, and the raw-text element met before its end. -/
structure Mark where
  found : Found
  stop : Nat
  raw : Option RawText

section Marks

variable (source : Bytes) (raw : Option RawText) (o : Nat)

def interpolationAt? : Option Mark := do
  let (stop, closed) ← bracesEnd? source o true
  if closed then
    let text ← slice? source (o + 1) stop
    some ⟨.token (.interpolation o (some text)), stop + 1, raw⟩
  else some ⟨.token (.interpolation o none), if stop < source.length then stop + 1 else stop, raw⟩

def commentAt? : Option Mark := do
  let inside ← suffix? source (o + 4)
  let stop := match Bytes.indexOf? inside "-->" with
    | none => source.length
    | some i => o + 4 + i + 3
  let text ← slice? source o stop
  some ⟨.text text, stop, raw⟩

/-- The closing tag whose name ends at an offset. -/
def closingAt? (name : Bytes) (nameEnd : Nat) : Option Mark := do
  let gap ← gapEnd? source nameEnd
  if source[gap]? == some '>'.toUInt8 then some ⟨.token (.closing o name false), gap + 1, raw⟩
  else
    let stop ← tagEnd? source gap
    some ⟨.token (.closing o name true), stop, raw⟩

/-- The opening tag whose name ends at an offset. -/
def openingAt? (name : Bytes) (nameEnd : Nat) : Option Mark := do
  let (attrs, stop) ← attrsFrom? source (source.length - nameEnd + 1) nameEnd
  some ⟨.token (.opening o name attrs stop.problem stop.selfClosing), stop.offset, raw⟩

/-- The start of a tag that is text, maybe one of a raw-text element. -/
def plainTagAt? (name : Bytes) (nameEnd : Nat) : Option Mark := do
  let text ← slice? source o nameEnd
  let lower := Bytes.lowerAscii name
  if isRawElement lower then
    let start ← tagEnd? source nameEnd
    some ⟨.text text, nameEnd, some ⟨lower, start⟩⟩
  else some ⟨.text text, nameEnd, raw⟩

/-- The lexeme at an offset outside raw text. -/
def markAt? : Option Mark := do
  let s ← suffix? source o
  let c ← source[o]?
  if c == '\\'.toUInt8 && source[o + 1]? == some '\x7b'.toUInt8 then
    some ⟨.text "\x7b", o + 2, raw⟩
  else if c == '\x7b'.toUInt8 then interpolationAt? source raw o
  else if Bytes.startsWith s "<!--" then commentAt? source raw o
  else if Bytes.startsWith s "</" then
    let nameEnd ← nameEnd? source (o + 2)
    let name ← slice? source (o + 2) nameEnd
    if Name.isActive name then closingAt? source raw o name nameEnd
    else some ⟨.text "<", o + 1, raw⟩
  else if c == '<'.toUInt8 then
    let nameEnd ← nameEnd? source (o + 1)
    let name ← slice? source (o + 1) nameEnd
    if Name.isActive name then openingAt? source raw o name nameEnd
    else plainTagAt? source raw o name nameEnd
  else
    let text ← slice? source o (o + 1)
    some ⟨.text text, o + 1, raw⟩

/-- The lexeme at an offset.  Where the raw text that stands there is empty, it is over, and the
lexeme behind it stands there. -/
def lexAt? : Option Mark :=
  match raw with
  | none => markAt? source none o
  | some r =>
      if r.start ≤ o then do
        let stop ← indexFoldAt? source o ("</" ++ r.name)
        if stop = o then markAt? source none o
        else
          let text ← slice? source o stop
          some ⟨.text text, stop, none⟩
      else markAt? source raw o

end Marks

def Lexeme.mark (total o : Nat) (x : Lexeme) : Mark :=
  ⟨x.found, min (o + x.length) total, x.ahead.map (·.within total)⟩

section MarksOfStanding

variable {source rest : Bytes} {o : Nat} {c : UInt8}

theorem Lexeme.mark_of_le {x : Lexeme} (h : o + x.length ≤ source.length) :
    x.mark source.length o =
      ⟨x.found, o + x.length, x.ahead.map (·.within source.length)⟩ := by
  rw [Lexeme.mark, Nat.min_eq_left h]

theorem Stands.interpolationAt_closed {n : Nat} (h : Stands source o (c :: rest))
    (hc : (c == '\x7b'.toUInt8) = true) (hn : Scan.closeBraces true 1 rest = (n, true))
    (raw : Option RawText) :
    interpolationAt? source raw o =
        some ⟨.token (.interpolation o (some (rest.take n))), o + (n + 2), raw⟩ ∧
      o + (n + 2) ≤ source.length := by
  have hlen := h.tail.length
  have hlt := Scan.closeBraces_lt (congrArg Prod.snd hn)
  rw [hn] at hlt
  have htext := h.tail.slice_take (Nat.le_of_lt hlt)
  have hstop : o + (n + 1) = o + 1 + n := by omega
  have hnext : o + 1 + n + 1 = o + (n + 2) := by omega
  rw [interpolationAt?, h.bracesEnd hc, Scan.braces_cons hc, hn]
  simp only [Option.bind_eq_bind, Option.bind_some, if_true, hstop, htext, hnext]
  exact ⟨trivial, by omega⟩

theorem Stands.interpolationAt_open {n : Nat} (h : Stands source o (c :: rest))
    (hc : (c == '\x7b'.toUInt8) = true) (hn : Scan.closeBraces true 1 rest = (n, false))
    (raw : Option RawText) :
    interpolationAt? source raw o =
      some ⟨.token (.interpolation o none), min (o + (n + 2)) source.length, raw⟩ := by
  have hlen := h.tail.length
  have hle := Scan.closeBraces_le true 1 rest
  rw [hn] at hle
  have hstop : (if o + (n + 1) < source.length then o + (n + 1) + 1 else o + (n + 1)) =
      min (o + (n + 2)) source.length := by
    split
    · omega
    · omega
  rw [interpolationAt?, h.bracesEnd hc, Scan.braces_cons hc, hn, ← hstop]
  rfl

theorem Stands.commentAt (h : Stands source o (c :: rest))
    (hcomment : Bytes.startsWith (c :: rest) "<!--" = true) (raw : Option RawText) :
    commentAt? source raw o = some ⟨.text ((c :: rest).take (commentLength (c :: rest))),
      o + commentLength (c :: rest), raw⟩ ∧ o + commentLength (c :: rest) ≤ source.length := by
  have hlen := h.length
  have hfour := (List.isPrefixOf_iff_prefix.1 hcomment).length_le
  change 4 ≤ (c :: rest).length at hfour
  have hinside := h.shift hfour
  rw [commentAt?, hinside.suffix, commentLength]
  simp only [Option.bind_eq_bind, Option.bind_some]
  cases hi : Bytes.indexOf? ((c :: rest).drop 4) "-->" with
  | none =>
      rw [← hlen, h.slice_take (Nat.le_refl _)]
      exact ⟨rfl, Nat.le_refl _⟩
  | some i =>
      have hclose := (indexOf?_eq_some (by decide) hi).2.length_le
      change 3 ≤ _ at hclose
      simp only [List.length_drop] at hclose
      have hle : i + 7 ≤ (c :: rest).length := by omega
      have hstop : o + 4 + i + 3 = o + (i + 7) := by omega
      dsimp only
      rw [hstop, h.slice_take hle]
      exact ⟨rfl, by omega⟩

theorem Stands.closingAt {after : Bytes} {nameEnd : Nat} (h : Stands source nameEnd after)
    (o : Nat) (name : Bytes) (raw : Option RawText) :
    let gap := (after.takeWhile Name.isSpace).length
    let closed := (after.drop gap).head? == some '>'.toUInt8
    let n := gap + (if closed then 1 else Scan.tagEnd (after.drop gap))
    closingAt? source raw o name nameEnd =
        some ⟨.token (.closing o name (!closed)), nameEnd + n, raw⟩ ∧
      nameEnd + n ≤ source.length := by
  intro gap closed n
  have hgap := h.skipGap
  rw [← drop_takeWhile] at hgap
  have hlen : nameEnd + gap + (after.drop gap).length = source.length := hgap.length
  have htag := Scan.tagEnd_le (after.drop gap)
  rw [closingAt?, h.gapEnd]
  simp only [Option.bind_eq_bind, Option.bind_some, hgap.head]
  split
  · rename_i hclosed
    obtain ⟨d, t, hcons⟩ : ∃ d t, after.drop gap = d :: t := by
      cases hafter : after.drop gap with
      | nil => simp [gap, hafter] at hclosed
      | cons d t => exact ⟨d, t, rfl⟩
    have hn : n = gap + 1 := by simp only [n, closed, gap, hclosed, if_true]
    rw [hcons, List.length_cons] at hlen
    rw [hn, show closed = true from hclosed]
    exact ⟨rfl, by omega⟩
  · rename_i hclosed
    have hn : n = gap + Scan.tagEnd (after.drop gap) := by
      simp only [n, closed, gap, hclosed, if_false, Bool.false_eq_true]
    rw [hn, show closed = false from Bool.eq_false_iff.2 hclosed, hgap.tagEnd, Option.bind_some,
      Nat.add_assoc]
    exact ⟨rfl, by omega⟩

theorem Stands.openingAt {after : Bytes} {nameEnd : Nat} (h : Stands source nameEnd after)
    (o : Nat) (name : Bytes) (raw : Option RawText) :
    let tail := lexAttrs nameEnd after
    openingAt? source raw o name nameEnd =
        some ⟨.token (.opening o name tail.attrs tail.problem tail.selfClosing),
          nameEnd + tail.length, raw⟩ ∧
      nameEnd + tail.length ≤ source.length := by
  intro tail
  obtain ⟨attrs, stop, hattrs, hle, hle', htail⟩ := h.attrs (Nat.lt_succ_self _)
  have hstop : nameEnd + (stop.offset - nameEnd) = stop.offset := by omega
  rw [openingAt?, hattrs, show tail = _ from htail]
  simp only [Option.bind_eq_bind, Option.bind_some, hstop]
  exact ⟨trivial, hle'⟩

theorem Stands.plainTagAt {n : Nat} (h : Stands source o (c :: rest))
    (hn : n ≤ (c :: rest).length) (name : Bytes) (ahead : Option RawAhead) :
    let lower := Bytes.lowerAscii name
    let raw := if isRawElement lower then
        some ⟨lower, (Scan.tagEnd? ((c :: rest).drop n)).map (o + n + ·)⟩
      else ahead
    plainTagAt? source (ahead.map (·.within source.length)) o name (o + n) =
      some ⟨.text ((c :: rest).take n), o + n, raw.map (·.within source.length)⟩ := by
  intro lower raw
  have hnext := h.shift hn
  rw [plainTagAt?, h.slice_take hn, hnext.tagEnd]
  simp only [Option.bind_eq_bind, Option.bind_some, raw]
  split
  · rw [Option.map_some, ← hnext.length, RawAhead.within_tagEnd]
  · rfl

theorem Stands.nameAt {s : Bytes} (h : Stands source o s) {α : Type} (k : Nat → Bytes → Option α) :
    (nameEnd? source o).bind (fun nameEnd => (slice? source o nameEnd).bind (k nameEnd)) =
      k (o + (Name.leading s).length) (Name.leading s) := by
  have hle := (leading_starts s).length_le
  have htake : s.take (Name.leading s).length = Name.leading s :=
    (List.prefix_iff_eq_take.1 (leading_starts s)).symm
  rw [h.nameEnd, Option.bind_some, h.slice_take hle, htake, Option.bind_some]

theorem Stands.markAt (h : Stands source o (c :: rest)) (ahead : Option RawAhead) :
    markAt? source (ahead.map (·.within source.length)) o =
      some ((lexMark ahead o c rest).mark source.length o) := by
  have hlen := h.tail.length
  have hpeek : source[o + 1]? = rest.head? := h.tail.head
  rw [markAt?, h.suffix, h.head, hpeek]
  simp only [Option.bind_eq_bind, Option.bind_some, List.head?_cons]
  fun_cases lexMark ahead o c rest with
  | case1 hbackslash =>
      cases rest with
      | nil => simp at hbackslash
      | cons d rest =>
          rw [if_pos hbackslash, Lexeme.mark_of_le]
          simp only [List.length_cons] at hlen ⊢
          omega
  | case2 hbackslash hc n hn =>
      obtain ⟨hmark, hle⟩ := h.interpolationAt_closed hc hn (ahead.map (·.within source.length))
      rw [if_neg hbackslash, if_pos hc, hmark, Lexeme.mark_of_le hle]
  | case3 hbackslash hc n hn =>
      rw [if_neg hbackslash, if_pos hc, h.interpolationAt_open hc hn]
      rfl
  | case4 s hbackslash hc hcomment i hi =>
      obtain ⟨hmark, hle⟩ := h.commentAt hcomment (ahead.map (·.within source.length))
      rw [commentLength, hi] at hmark hle
      rw [if_neg hbackslash, if_neg hc, if_pos hcomment, hmark, Lexeme.mark_of_le hle]
  | case5 s hbackslash hc hcomment hi =>
      obtain ⟨hmark, hle⟩ := h.commentAt hcomment (ahead.map (·.within source.length))
      rw [commentLength, hi] at hmark hle
      rw [if_neg hbackslash, if_neg hc, if_pos hcomment, hmark, Lexeme.mark_of_le hle]
      rw [List.take_length]
  | case6 s hbackslash hc hcomment hclose name hactive after gap closed n =>
      have htwo : 2 ≤ (c :: rest).length := (List.isPrefixOf_iff_prefix.1 hclose).length_le
      have hname : Stands source (o + 2) (rest.drop 1) := h.shift htwo
      have hafter : Stands source (o + 2 + name.length) after :=
        hname.shift (leading_starts _).length_le
      obtain ⟨hmark, hle⟩ := hafter.closingAt o name
        (ahead.map (·.within source.length))
      have hstop : o + 2 + name.length + (gap + if closed then 1 else Scan.tagEnd (after.drop gap)) =
          o + n := by
        simp only [n]
        omega
      rw [hstop] at hmark hle
      rw [if_neg hbackslash, if_neg hc, if_neg hcomment, if_pos hclose, hname.nameAt,
        if_pos hactive, hmark, Lexeme.mark_of_le hle]
  | case7 s hbackslash hc hcomment hclose name hactive =>
      have htwo : 2 ≤ (c :: rest).length := (List.isPrefixOf_iff_prefix.1 hclose).length_le
      have hname : Stands source (o + 2) (rest.drop 1) := h.shift htwo
      rw [if_neg hbackslash, if_neg hc, if_neg hcomment, if_pos hclose, hname.nameAt,
        if_neg hactive, Lexeme.mark_of_le h.lt]
  | case8 s hbackslash hc hcomment hclose hlt name n hactive tail =>
      have hn : n ≤ (c :: rest).length := by
        have hname := (leading_starts rest).length_le
        simp only [n, name, List.length_cons]
        omega
      have hafter : Stands source (o + n) (s.drop n) := h.shift hn
      obtain ⟨hmark, hle⟩ := hafter.openingAt o name
        (ahead.map (·.within source.length))
      rw [Nat.add_assoc o n] at hmark hle
      rw [if_neg hbackslash, if_neg hc, if_neg hcomment, if_neg hclose, if_pos hlt, h.tail.nameAt,
        if_pos hactive, Nat.add_assoc o 1, hmark, Lexeme.mark_of_le hle]
  | case9 s hbackslash hc hcomment hclose hlt name n hactive lower raw =>
      have hn : n ≤ (c :: rest).length := by
        have hname := (leading_starts rest).length_le
        simp only [n, name, List.length_cons]
        omega
      have hmark := h.plainTagAt hn name ahead
      rw [if_neg hbackslash, if_neg hc, if_neg hcomment, if_neg hclose, if_pos hlt, h.tail.nameAt,
        if_neg hactive, Nat.add_assoc o 1, hmark, Lexeme.mark_of_le (h.shift hn).le]
  | case10 s hbackslash hc hcomment hclose hlt =>
      have htext := h.slice_take (n := 1) (Nat.le_add_left 1 rest.length)
      rw [if_neg hbackslash, if_neg hc, if_neg hcomment, if_neg hclose, if_neg hlt, htext,
        Option.bind_some, Lexeme.mark_of_le h.lt]
      rfl

theorem Stands.lexAt (h : Stands source o (c :: rest)) (ahead : Option RawAhead) :
    lexAt? source (ahead.map (·.within source.length)) o =
      some ((lexeme ahead o c rest).mark source.length o) := by
  cases hraw : rawAt ahead o with
  | none =>
      have hmark := h.markAt ahead
      rw [lexeme, hraw]
      cases ahead with
      | none => exact hmark
      | some a => exact (if_neg (Nat.not_le.2 (lt_start_of_rawAt hraw h.lt))).trans hmark
  | some name =>
      obtain ⟨start, rfl, hle⟩ := rawAt_eq_some hraw
      have hdue : lexAt? source ((some ⟨name, some start⟩ : Option RawAhead).map
          (·.within source.length)) o = (do
        let stop ← indexFoldAt? source o ("</" ++ name)
        if stop = o then markAt? source none o
        else
          let text ← slice? source o stop
          some ⟨.text text, stop, none⟩) := if_pos hle
      have hne : Bytes.ofString "</" ++ name ≠ [] :=
        List.append_ne_nil_of_left_ne_nil (by decide) name
      have hn := indexFold_le ("</" ++ name) (c :: rest)
      rw [hdue, h.indexFoldAt hne, lexeme, hraw]
      simp only [Option.bind_eq_bind, Option.bind_some]
      split
      · rename_i hstop
        rw [if_pos (by omega)]
        exact h.markAt none
      · rename_i hstop
        rw [if_neg (by omega), h.slice_take hn, Option.bind_some,
          Lexeme.mark_of_le (h.shift hn).le]
        rfl

/-- A lexeme at an offset of a source: it goes on in the source, what stands behind it is the rest of
the tokens, and if it is a closing tag it is found again. -/
structure Mark.Fits (source : Bytes) (raw : Option RawText) (o : Nat) (m : Mark) : Prop where
  lt : o < m.stop
  le : m.stop ≤ source.length
  ahead : ∃ ahead : Option RawAhead, m.raw = ahead.map (·.within source.length)
  sound : m.found.Sound
  tokens : lexFrom raw o (source.drop o) =
    m.found.before o (lexFrom m.raw m.stop (source.drop m.stop))
  again : ∀ offset name malformed, m.found = .token (.closing offset name malformed) →
    lexAt? source m.raw o = some m

theorem exists_mark (ahead : Option RawAhead) (ho : o < source.length) :
    ∃ m, lexAt? source (ahead.map (·.within source.length)) o = some m ∧
      m.Fits source (ahead.map (·.within source.length)) o := by
  obtain ⟨c, rest, hcons⟩ : ∃ c rest, source.drop o = c :: rest := by
    cases hdrop : source.drop o with
    | nil => exact absurd (List.drop_eq_nil_iff.1 hdrop) (by omega)
    | cons c rest => exact ⟨c, rest, rfl⟩
  have h : Stands source o (c :: rest) := ⟨Nat.le_of_lt ho, hcons⟩
  have hlen : o + rest.length + 1 = source.length := h.length
  have hpos := length_lexeme_pos ahead o c rest
  have htokens := lexFrom_cons ahead o c rest
  rw [hlen] at htokens
  dsimp only at htokens
  refine ⟨_, h.lexAt ahead, ?_, Nat.min_le_right _ _, ⟨_, rfl⟩, sound_lexeme .., ?_, ?_⟩
  · simp only [Lexeme.mark]
    omega
  · rw [hcons, htokens, ← hcons, List.drop_drop]
    simp only [Lexeme.mark]
    by_cases hle : o + (lexeme ahead o c rest).length ≤ source.length
    · rw [Nat.min_eq_left hle]
    · rw [Nat.min_eq_right (by omega), List.drop_length, List.drop_eq_nil_of_le (by omega),
        lexFrom, lexFrom]
  · intro offset name malformed hfound
    have hagain := h.lexAt (lexeme ahead o c rest).ahead
    rwa [lexeme_again ahead o c rest hfound] at hagain

theorem Mark.Fits.ne_nil {raw : Option RawText} {m : Mark} {piece : Bytes}
    (h : m.Fits source raw o) (hfound : m.found = .text piece) : piece ≠ [] := by
  have hsound := h.sound
  rw [hfound] at hsound
  exact hsound

theorem Mark.Fits.fits_again {raw : Option RawText} {m : Mark} (h : m.Fits source raw o)
    {offset : Nat} {name : Bytes} {malformed : Bool}
    (hfound : m.found = .token (.closing offset name malformed)) : m.Fits source m.raw o := by
  have hlt : o < source.length := Nat.lt_of_lt_of_le h.lt h.le
  obtain ⟨ahead, hahead⟩ := h.ahead
  obtain ⟨m', hlex, hfits⟩ := exists_mark ahead hlt
  rw [← hahead, h.again offset name malformed hfound] at hlex
  cases hlex
  rwa [hahead]

end MarksOfStanding

end TagLoom.Template

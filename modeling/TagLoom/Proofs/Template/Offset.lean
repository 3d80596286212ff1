import TagLoom.Proofs.Template.Attributes
import TagLoom.Proofs.Template.Ends
import TagLoom.Template.Parser

/-!
# Reading by offset

Attributes and quoted values are read once more, from offset to offset.  Every byte and every part is
looked up in the whole text, and a look-up beside the text has no result.  It turns out that there
always is a result, and that it is the one of the reading that goes along the text.
-/

namespace TagLoom.Template

/-! ## Quoted values -/

/-- Cuts a quoted value from an offset on, in at most some number of rounds. -/
def piecesFrom? (value : Bytes) : Nat → Nat → Option (List Piece)
  | 0, _ => none
  | rounds + 1, i =>
      match value[i]? with
      | none => some []
      | some c =>
          if c == '\\'.toUInt8 && value[i + 1]? == some '\x7b'.toUInt8 then
            (piecesFrom? value rounds (i + 2)).map (consLiteral i "\x7b")
          else if c == '\x7b'.toUInt8 then do
            let (stop, _) ← bracesEnd? value i false
            let source ← slice? value (i + 1) stop
            (piecesFrom? value rounds (stop + 1)).map (.interpolation i source :: ·)
          else (piecesFrom? value rounds (i + 1)).map (consLiteral i [c])

/-- A quoted value is cut inside its bounds, and each round goes on further in it. -/
theorem piecesFrom?_eq {value : Bytes} {rounds i : Nat} (h : value.length - i < rounds) :
    piecesFrom? value rounds i = some (splitText i (value.drop i)) := by
  induction rounds generalizing i with
  | zero => omega
  | succ rounds ih =>
      cases hs : value.drop i with
      | nil =>
          have hnone : value[i]? = none := by rw [← List.head?_drop, hs, List.head?_nil]
          rw [piecesFrom?, hnone, splitText]
      | cons c rest =>
          have hle : i ≤ value.length := by
            by_contra hlt
            rw [List.drop_eq_nil_of_le (by omega)] at hs
            cases hs
          have hstands : Stands value i (c :: rest) := ⟨hle, hs⟩
          have hlt := hstands.lt
          have hnext (k : Nat) : value.drop (i + (k + 1)) = rest.drop k := by
            rw [← List.drop_drop, hs, List.drop_succ_cons]
          have hpeek : value[i + 1]? = rest.head? := hstands.tail.head
          rw [piecesFrom?, hstands.head, List.head?_cons, splitText, hpeek]
          dsimp only
          split
          · rw [ih (by omega), hnext 1, Option.map_some]
          split
          · rename_i hbrace
            have hn : (Scan.braces false (c :: rest)).1 =
                (Scan.closeBraces false 1 rest).1 + 1 := by rw [Scan.braces_cons hbrace]
            have hle := Scan.closeBraces_le false 1 rest
            have hsource := hstands.tail.slice_take hle
            rw [hstands.bracesEnd hbrace, hn]
            generalize (Scan.closeBraces false 1 rest).1 = n at hle hsource
            have hstop : i + (n + 1) = i + 1 + n := by omega
            simp only [hstop, Option.bind_eq_bind, Option.bind_some, hsource]
            rw [ih (by omega), show i + 1 + n + 1 = i + (n + 1 + 1) by omega, hnext (n + 1)]
            rfl
          · rw [ih (by omega), hnext 0, Option.map_some, List.drop_zero]

/-! ## Attributes -/

/-- The end of an opening tag: what ended the attributes early, whether the element has no content,
and the offset behind the tag. -/
structure TagStop where
  problem : Option (Nat × TagProblem)
  selfClosing : Bool
  offset : Nat

section Attributes

variable (source : Bytes)

/-- Goes on behind the tag after a problem. -/
def skipTag? (problem : Nat × TagProblem) (o : Nat) : Option TagStop := do
  let stop ← tagEnd? source o
  if 2 ≤ stop then
    let last ← source[stop - 1]?
    let before ← source[stop - 2]?
    some ⟨some problem, last == '>'.toUInt8 && before == '/'.toUInt8, stop⟩
  else some ⟨some problem, false, stop⟩

/-- Goes on behind the first `>` or newline after an open value. -/
def resyncTag? (problem : Nat × TagProblem) (o : Nat) : Option TagStop := do
  let rest ← suffix? source (o + 1)
  match rest.findIdx? (fun c => c == '>'.toUInt8 || c == '\n'.toUInt8) with
  | none => some ⟨some problem, true, source.length⟩
  | some i =>
      let last ← source[o + 1 + i]?
      let before ← source[o + i]?
      some ⟨some problem, last == '\n'.toUInt8 || before == '/'.toUInt8, o + 1 + i + 1⟩

def valueAt? (start : Nat) (name : Bytes) (o : Nat) : Option (TagStop ⊕ Attr × Nat) :=
  match source[o]? with
  | none => (skipTag? source (o, .unquotedValue name) o).map .inl
  | some q =>
      if q == '"'.toUInt8 || q == '\''.toUInt8 then do
        match ← quoteEnd? source o with
        | none => (resyncTag? source (o, .openValue name) o).map .inl
        | some stop =>
            let value ← slice? source (o + 1) stop
            some (.inr (⟨start, name, .quoted (o + 1) value⟩, stop + 1))
      else if q == '\x7b'.toUInt8 then do
        match ← bracesEnd? source o false with
        | (_, false) => (resyncTag? source (o, .openValue name) o).map .inl
        | (stop, true) =>
            let value ← slice? source (o + 1) stop
            some (.inr (⟨start, name, .braced value⟩, stop + 1))
      else (skipTag? source (o, .unquotedValue name) o).map .inl

def namedAt? (start : Nat) : Option (TagStop ⊕ Attr × Nat) := do
  let stop ← nameEnd? source start
  if stop = start then (skipTag? source (start, .malformedAttr) start).map .inl
  else
    let name ← slice? source start stop
    let equals ← gapEnd? source stop
    if source[equals]? != some '='.toUInt8 then some (.inr (⟨start, name, .bare⟩, stop))
    else
      let value ← gapEnd? source (equals + 1)
      valueAt? source start name value

/-- Reads the next attribute, and where to go on, or the end of the tag. -/
def attrAt? (o : Nat) : Option (TagStop ⊕ Attr × Nat) := do
  let start ← gapEnd? source o
  match source[start]? with
  | none => some (.inl ⟨some (0, .unterminated), true, start⟩)
  | some c =>
      if c == '>'.toUInt8 then some (.inl ⟨none, false, start + 1⟩)
      else
        let rest ← suffix? source start
        if Bytes.startsWith rest "/>" then some (.inl ⟨none, true, start + 2⟩)
        else namedAt? source start

/-- Reads attributes from an offset on, in at most some number of rounds. -/
def attrsFrom? : Nat → Nat → Option (List Attr × TagStop)
  | 0, _ => none
  | rounds + 1, o => do
      match ← attrAt? source o with
      | .inl stop => some ([], stop)
      | .inr (a, next) =>
          let (attrs, stop) ← attrsFrom? rounds next
          some (a :: attrs, stop)

end Attributes

/-- What was read at an offset is how a tail goes on, some bytes of which were read before. -/
def GoesOn (source : Bytes) (before o : Nat) (tail : TagTail) : TagStop ⊕ Attr × Nat → Prop
  | .inl stop => o ≤ stop.offset ∧ stop.offset ≤ source.length ∧
      tail = ⟨[], stop.problem, stop.selfClosing, before + (stop.offset - o)⟩
  | .inr (a, next) => o < next ∧ next ≤ source.length ∧
      tail = (lexAttrs next (source.drop next)).consAttr a (before + (next - o))

section AttributesOfStanding

variable {source s : Bytes} {o : Nat}

theorem endsWith_slashGt (u : Bytes) (a b : UInt8) :
    Bytes.endsWith (u ++ [a, b]) "/>" = (b == '>'.toUInt8 && a == '/'.toUInt8) := by
  rw [Bytes.endsWith, slashGt_eq, List.isSuffixOf, List.reverse_append, BEq.comm (a := b),
    BEq.comm (a := a)]
  simp only [List.isPrefixOf, List.reverse_cons, List.reverse_nil, List.nil_append,
    List.cons_append, Bool.and_true]

theorem endsWith_slashGt_singleton (a : UInt8) : Bytes.endsWith [a] "/>" = false := by
  rw [Bytes.endsWith, slashGt_eq, List.isSuffixOf]
  simp only [List.isPrefixOf, List.reverse_cons, List.reverse_nil, List.nil_append,
    List.cons_append, Bool.and_false]

theorem endsWith_slash (u : Bytes) (a : UInt8) :
    Bytes.endsWith (u ++ [a]) "/" = (a == '/'.toUInt8) := by
  have hmark : Bytes.ofString "/" = ['/'.toUInt8] := by decide
  rw [Bytes.endsWith, hmark, List.isSuffixOf, List.reverse_append, BEq.comm (a := a)]
  simp only [List.isPrefixOf, List.reverse_cons, List.reverse_nil, List.nil_append,
    List.cons_append, Bool.and_true]

/-- Skipping a tag looks back no further than to the tag's own text, unless that is nothing but a
closing mark. -/
theorem Stands.skipTag_eq (h : Stands source o s) (problem : Nat × TagProblem)
    (hback : s = [] ∨ s.head? = some '>'.toUInt8 →
      ∃ c, 1 ≤ o ∧ source[o - 1]? = some c ∧ c ≠ '/'.toUInt8 ∧ c ≠ '>'.toUInt8) :
    skipTag? source problem o = some ⟨some problem,
      Bytes.endsWith (s.take (Scan.tagEnd s)) "/>", o + Scan.tagEnd s⟩ := by
  have hle := Scan.tagEnd_le s
  rw [skipTag?, h.tagEnd]
  generalize hk : Scan.tagEnd s = k at hle ⊢
  simp only [Option.bind_eq_bind, Option.bind_some]
  match k with
  | 0 =>
      cases s with
      | cons c rest => exact absurd hk (Nat.ne_of_gt (Scan.tagEnd_pos c rest))
      | nil =>
          have hlen := h.length
          obtain ⟨c, ho, hc, -, hgt⟩ := hback (Or.inl rfl)
          have hends : Bytes.endsWith (([] : Bytes).take 0) "/>" = false := rfl
          rw [hends, Nat.add_zero]
          split
          · obtain ⟨d, hd⟩ : ∃ d, source[o - 2]? = some d := by
              rw [List.length_nil] at hlen
              exact ⟨_, List.getElem?_eq_getElem (by omega)⟩
            simp [hc, hd, hgt]
          · rfl
  | 1 =>
      cases s with
      | nil => simp [Scan.tagEnd] at hk
      | cons c rest =>
          have hends : Bytes.endsWith ((c :: rest).take 1) "/>" = false :=
            endsWith_slashGt_singleton c
          rw [hends]
          split
          · have hlt := h.lt
            have hbefore : source[o - 1]? = some source[o - 1] :=
              List.getElem?_eq_getElem (by omega)
            rw [Nat.add_sub_cancel, Nat.add_sub_add_right o 1 1, h.head, hbefore]
            cases hc : c == '>'.toUInt8 with
            | false => simp [hc]
            | true =>
                obtain ⟨d, -, hd, hslash, -⟩ := hback (Or.inr (congrArg some (eq_of_beq hc)))
                rw [hbefore, Option.some.injEq] at hd
                simp [hd, hslash]
          · rfl
  | k + 2 =>
      have hlast : s.take (k + 2) = s.take k ++ [s[k], s[k + 1]] := by
        rw [List.take_succ_eq_append_getElem hle, List.take_succ_eq_append_getElem (by omega),
          List.append_assoc]
        rfl
      have hget : source[o + k]? = some s[k] := (h.get k).trans (List.getElem?_eq_getElem _)
      have hget' : source[o + (k + 1)]? = some s[k + 1] :=
        (h.get (k + 1)).trans (List.getElem?_eq_getElem _)
      rw [hlast, endsWith_slashGt, if_pos (by omega), show o + (k + 2) - 1 = o + (k + 1) by omega,
        show o + (k + 2) - 2 = o + k by omega, hget, hget']
      rfl

theorem Stands.skipTag (h : Stands source o s) (problem : Nat × TagProblem)
    (hback : s = [] ∨ s.head? = some '>'.toUInt8 →
      ∃ c, 1 ≤ o ∧ source[o - 1]? = some c ∧ c ≠ '/'.toUInt8 ∧ c ≠ '>'.toUInt8) :
    ∃ stop, skipTag? source problem o = some stop ∧ o ≤ stop.offset ∧ stop.offset ≤ source.length ∧
      ∀ n, TagTail.skip problem n s = ⟨[], stop.problem, stop.selfClosing, n + (stop.offset - o)⟩ := by
  have hlen := h.length
  have hle := Scan.tagEnd_le s
  refine ⟨_, h.skipTag_eq problem hback, Nat.le_add_right o _, ?_, fun n => ?_⟩
  · dsimp only
    omega
  · rw [TagTail.skip]
    simp

theorem Stands.resyncTag {q : UInt8} {inner : Bytes} (h : Stands source o (q :: inner))
    (problem : Nat × TagProblem) :
    ∃ stop, resyncTag? source problem o = some stop ∧ o ≤ stop.offset ∧
      stop.offset ≤ source.length ∧ ∀ n, TagTail.resync problem n (q :: inner) =
        ⟨[], stop.problem, stop.selfClosing, n + (stop.offset - o)⟩ := by
  have hlen := h.length
  rw [List.length_cons] at hlen
  simp only [resyncTag?, TagTail.resync, h.tail.suffix, Option.bind_eq_bind, Option.bind_some,
    List.drop_succ_cons, List.drop_zero]
  cases hfind : inner.findIdx? fun c => c == '>'.toUInt8 || c == '\n'.toUInt8 with
  | none =>
      refine ⟨_, rfl, h.le, Nat.le_refl _, fun n => ?_⟩
      simp only [List.length_cons, TagTail.mk.injEq, true_and]
      omega
  | some i =>
      have hi : i < inner.length := (List.findIdx?_eq_some_iff_getElem.1 hfind).1
      have hlast : source[o + 1 + i]? = some inner[i] :=
        (h.tail.get i).trans (List.getElem?_eq_getElem hi)
      have hcons : i < (q :: inner).length := Nat.lt_succ_of_lt hi
      have hbefore : source[o + i]? = some (q :: inner)[i] :=
        (h.get i).trans (List.getElem?_eq_getElem hcons)
      have hhead : (inner.drop i).head? = some inner[i] := by
        rw [List.head?_drop, List.getElem?_eq_getElem hi]
      simp only [hlast, hbefore, Option.bind_some]
      refine ⟨_, rfl, ?_, ?_, fun n => ?_⟩
      · dsimp only
        omega
      · dsimp only
        omega
      · rw [hhead, List.take_succ_eq_append_getElem hcons, endsWith_slash]
        simp only [TagTail.mk.injEq, true_and, Option.some_beq_some]
        omega

/-- A value that ends in the text is taken whole, and reading goes on behind it. -/
theorem Stands.valueEnd {q : UInt8} {inner : Bytes} {m : Nat} (h : Stands source o (q :: inner))
    (hm : m < inner.length) (a : Attr) (before : Nat) :
    slice? source (o + 1) (o + 1 + m) = some (inner.take m) ∧
      GoesOn source before o ((lexAttrs (o + m + 2) (inner.drop (m + 1))).consAttr a (before + m + 2))
        (.inr (a, o + 1 + m + 1)) := by
  have hnext := h.tail.shift (n := m + 1) hm
  have hoffset : o + 1 + (m + 1) = o + m + 2 := by omega
  rw [hoffset] at hnext
  refine ⟨h.tail.slice_take (Nat.le_of_lt hm), ?_⟩
  rw [show o + 1 + m + 1 = o + m + 2 by omega, GoesOn, hnext.drop]
  refine ⟨by omega, hnext.le, ?_⟩
  congr 1
  omega

theorem Stands.value (h : Stands source o s) (start : Nat) (name : Bytes) (before : Nat)
    (hback : ∃ c, 1 ≤ o ∧ source[o - 1]? = some c ∧ c ≠ '/'.toUInt8 ∧ c ≠ '>'.toUInt8) :
    ∃ r, valueAt? source start name o = some r ∧
      GoesOn source before o (valueTail start name before o s) r := by
  have hskip : ∃ r, (skipTag? source (o, .unquotedValue name) o).map .inl = some r ∧
      GoesOn source before o (TagTail.skip (o, .unquotedValue name) before s) r := by
    obtain ⟨stop, hstop, hle, hle', htail⟩ := h.skipTag (o, .unquotedValue name) fun _ => hback
    exact ⟨.inl stop, by rw [hstop, Option.map_some], hle, hle', htail before⟩
  have hresync {q : UInt8} {inner : Bytes} (h : Stands source o (q :: inner)) :
      ∃ r, (resyncTag? source (o, .openValue name) o).map .inl = some r ∧
        GoesOn source before o (TagTail.resync (o, .openValue name) before (q :: inner)) r := by
    obtain ⟨stop, hstop, hle, hle', htail⟩ := h.resyncTag (o, .openValue name)
    exact ⟨.inl stop, by rw [hstop, Option.map_some], hle, hle', htail before⟩
  cases s with
  | nil =>
      rw [valueAt?, h.head]
      exact hskip
  | cons q inner =>
      rw [valueAt?, h.head, valueTail]
      dsimp only [List.head?_cons]
      split
      · rw [h.quoteEnd]
        cases hm : Scan.quoted? q inner with
        | none => exact hresync h
        | some m =>
            obtain ⟨hvalue, hgoes⟩ := h.valueEnd (Scan.quoted?_lt hm)
              ⟨start, name, .quoted (o + 1) (inner.take m)⟩ before
            exact ⟨_, by simp [hvalue], hgoes⟩
      split
      · rename_i hbrace
        rw [h.bracesEnd hbrace, Scan.braces_cons hbrace]
        cases hm : Scan.closeBraces false 1 inner with
        | mk m ok =>
            cases ok with
            | false => exact hresync h
            | true =>
                have hok : (Scan.closeBraces false 1 inner).2 = true := by rw [hm]
                have hlt := Scan.closeBraces_lt hok
                rw [hm] at hlt
                obtain ⟨hvalue, hgoes⟩ := h.valueEnd hlt
                  ⟨start, name, .braced (inner.take m)⟩ before
                rw [show o + 1 + m = o + (m + 1) by omega] at hvalue hgoes
                exact ⟨_, by simp [hvalue], hgoes⟩
      · exact hskip

theorem lexAttrs_blank (hs : s.dropWhile Name.isSpace = []) :
    lexAttrs o s = ⟨[], some (0, .unterminated), true, (s.takeWhile Name.isSpace).length⟩ := by
  rw [lexAttrs.eq_def]
  split
  · rfl
  · rename_i hcons
    rw [hs] at hcons
    cases hcons

theorem lexAttrs_malformed {c : UInt8} {rest : Bytes} (hs : s.dropWhile Name.isSpace = c :: rest)
    (hgt : ¬ (c == '>'.toUInt8) = true) (hslash : ¬ Bytes.startsWith (c :: rest) "/>" = true)
    (hc : Name.isStart c = false) :
    let gap := (s.takeWhile Name.isSpace).length
    lexAttrs o s = TagTail.skip (o + gap, .malformedAttr) gap (c :: rest) := by
  intro gap
  have hname : (Name.leading (c :: rest)).isEmpty = true := by simp [Name.leading, hc]
  rw [lexAttrs.eq_def]
  split
  · rename_i hnil
    rw [hs] at hnil
    cases hnil
  · rename_i hcons
    rw [hs] at hcons
    cases hcons
    rw [if_neg hgt, if_neg hslash]
    dsimp only
    rw [if_pos hname]

theorem Stands.before_value {value : Bytes} (h : Stands source o ('='.toUInt8 :: value)) :
    let o' := o + 1 + (value.takeWhile Name.isSpace).length
    ∃ c, 1 ≤ o' ∧ source[o' - 1]? = some c ∧ c ≠ '/'.toUInt8 ∧ c ≠ '>'.toUInt8 := by
  intro o'
  have hbefore : source[o' - 1]? = ('='.toUInt8 :: value)[(value.takeWhile Name.isSpace).length]? := by
    rw [← h.get]
    congr 1
    omega
  rw [hbefore]
  cases hgap : (value.takeWhile Name.isSpace).length with
  | zero => exact ⟨'='.toUInt8, by omega, rfl, by decide, by decide⟩
  | succ j =>
      have hj : j < (value.takeWhile Name.isSpace).length := by omega
      have hget : value[j]? = some (value.takeWhile Name.isSpace)[j] := by
        rw [(List.takeWhile_prefix Name.isSpace).getElem hj]
        exact List.getElem?_eq_getElem _
      have hspace : Name.isSpace (value.takeWhile Name.isSpace)[j] = true :=
        List.all_eq_true.1 List.all_takeWhile _ (List.getElem_mem hj)
      refine ⟨_, by omega, hget, ?_, ?_⟩
      · intro heq
        rw [heq] at hspace
        exact absurd hspace (by decide)
      · intro heq
        rw [heq] at hspace
        exact absurd hspace (by decide)

theorem GoesOn.shift {before n : Nat} {tail : TagTail} {r : TagStop ⊕ Attr × Nat}
    (h : GoesOn source (before + n) (o + n) tail r) : GoesOn source before o tail r := by
  cases r with
  | inl stop =>
      obtain ⟨hle, hle', htail⟩ := h
      refine ⟨by omega, hle', ?_⟩
      rw [htail]
      congr 1
      omega
  | inr next =>
      obtain ⟨hlt, hle, htail⟩ := h
      refine ⟨by omega, hle, ?_⟩
      rw [htail]
      congr 1
      omega

theorem Stands.named_malformed {c : UInt8} {rest : Bytes} (hs : s.dropWhile Name.isSpace = c :: rest)
    (h : Stands source (o + (s.takeWhile Name.isSpace).length) (c :: rest))
    (hgt : ¬ (c == '>'.toUInt8) = true) (hslash : ¬ Bytes.startsWith (c :: rest) "/>" = true)
    (hc : Name.isStart c = false) :
    ∃ r, namedAt? source (o + (s.takeWhile Name.isSpace).length) = some r ∧
      GoesOn source 0 o (lexAttrs o s) r := by
  have hname : Name.leading (c :: rest) = [] := by simp [Name.leading, hc]
  obtain ⟨stop, hstop, hle, hle', htail⟩ := h.skipTag
    (o + (s.takeWhile Name.isSpace).length, .malformedAttr) fun hback => by
      rcases hback with hnil | hhead
      · cases hnil
      · exact absurd (by simpa using hhead) hgt
  rw [namedAt?, h.nameEnd, Option.bind_eq_bind, Option.bind_some, hname, List.length_nil,
    Nat.add_zero, if_pos rfl, hstop]
  refine ⟨_, rfl, GoesOn.shift (n := (s.takeWhile Name.isSpace).length) ?_⟩
  rw [Nat.zero_add]
  exact ⟨hle, hle', (lexAttrs_malformed hs hgt hslash hc).trans (htail _)⟩

/-- Behind the name of an attribute either an equals sign and a value stand, or it is a bare one. -/
theorem Stands.named_start {c : UInt8} {rest : Bytes} (hs : s.dropWhile Name.isSpace = c :: rest)
    (h : Stands source (o + (s.takeWhile Name.isSpace).length) (c :: rest))
    (hc : Name.isStart c = true) :
    ∃ r, namedAt? source (o + (s.takeWhile Name.isSpace).length) = some r ∧
      GoesOn source 0 o (lexAttrs o s) r := by
  have hname : 1 ≤ (Name.leading (c :: rest)).length := by simp [Name.leading_cons hc]
  have hname' := (leading_starts (c :: rest)).length_le
  have hdrop : (c :: rest).drop (Name.leading (c :: rest)).length =
      rest.drop ((Name.leading (c :: rest)).length - 1) := by
    rw [← Nat.sub_add_cancel hname, List.drop_succ_cons, Nat.add_sub_cancel]
  have htake : (c :: rest).take (Name.leading (c :: rest)).length = Name.leading (c :: rest) :=
    (List.prefix_iff_eq_take.1 (leading_starts _)).symm
  have hafter := h.shift hname'
  rw [hdrop] at hafter
  have hgap := hafter.skipGap
  rw [namedAt?, h.nameEnd, Option.bind_eq_bind, Option.bind_some, if_neg (by omega),
    h.slice_take hname', htake]
  simp only [Option.bind_eq_bind, Option.bind_some, hafter.gapEnd, hgap.head]
  by_cases hequals : ∃ value, (rest.drop ((Name.leading (c :: rest)).length - 1)).dropWhile
      Name.isSpace = '='.toUInt8 :: value
  · obtain ⟨value, hvalue⟩ := hequals
    have htail := lexAttrs_equals (o := o) hs hc hvalue
    rw [hvalue] at hgap ⊢
    rw [List.head?_cons, if_neg (by simp), hgap.tail.gapEnd]
    dsimp only at htail
    generalize hk : (Name.leading (c :: rest)).length + _ + 1 + _ = k at htail
    obtain ⟨r, hr, hgoes⟩ := hgap.tail.skipGap.value (o + (s.takeWhile Name.isSpace).length)
      (Name.leading (c :: rest)) ((s.takeWhile Name.isSpace).length + k) hgap.before_value
    refine ⟨r, hr, GoesOn.shift (n := (s.takeWhile Name.isSpace).length + k) ?_⟩
    rw [htail, Nat.zero_add]
    subst hk
    simpa only [Nat.add_assoc] using hgoes
  · have hne : ((rest.drop ((Name.leading (c :: rest)).length - 1)).dropWhile
        Name.isSpace).head? ≠ some '='.toUInt8 :=
      fun heq => hequals (List.head?_eq_some_iff.1 heq)
    have htail : lexAttrs o s = _ := lexAttrs_bare hs hc hne
    rw [if_pos (by simpa using hne)]
    refine ⟨_, rfl, by omega, hafter.le, ?_⟩
    rw [htail, hafter.drop]
    congr 1
    omega

theorem Stands.named {c : UInt8} {rest : Bytes} (hs : s.dropWhile Name.isSpace = c :: rest)
    (h : Stands source (o + (s.takeWhile Name.isSpace).length) (c :: rest))
    (hgt : ¬ (c == '>'.toUInt8) = true) (hslash : ¬ Bytes.startsWith (c :: rest) "/>" = true) :
    ∃ r, namedAt? source (o + (s.takeWhile Name.isSpace).length) = some r ∧
      GoesOn source 0 o (lexAttrs o s) r := by
  cases hc : Name.isStart c with
  | false => exact h.named_malformed hs hgt hslash hc
  | true => exact h.named_start hs hc

/-- The reading at an offset stays in the source, moves on, and is that along the text. -/
theorem Stands.attr (h : Stands source o s) :
    ∃ r, attrAt? source o = some r ∧ GoesOn source 0 o (lexAttrs o s) r := by
  have hgap := h.skipGap
  rw [attrAt?, h.gapEnd]
  simp only [Option.bind_eq_bind, Option.bind_some, hgap.head]
  cases hs : s.dropWhile Name.isSpace with
  | nil =>
      refine ⟨_, rfl, Nat.le_add_right _ _, hgap.le, ?_⟩
      rw [lexAttrs_blank hs]
      simp
  | cons c rest =>
      rw [hs] at hgap
      have hlen := hgap.length
      rw [List.length_cons] at hlen
      dsimp only [List.head?_cons]
      by_cases hgt : (c == '>'.toUInt8) = true
      · rw [if_pos hgt]
        rw [eq_of_beq hgt] at hs
        refine ⟨_, rfl, by dsimp only; omega, by dsimp only; omega, ?_⟩
        rw [lexAttrs_close hs]
        simp only [TagTail.mk.injEq, true_and]
        omega
      rw [if_neg hgt, hgap.suffix]
      simp only [Option.bind_some]
      by_cases hslash : Bytes.startsWith (c :: rest) "/>" = true
      · rw [if_pos hslash]
        obtain ⟨t, ht⟩ := List.isPrefixOf_iff_prefix.1 hslash
        rw [slashGt_eq] at ht
        obtain ⟨rfl, rfl⟩ := List.cons.inj ht
        change _ + (t.length + 1 + 1) = _ at hlen
        refine ⟨_, rfl, by dsimp only; omega, by dsimp only; omega, ?_⟩
        rw [lexAttrs_selfClose hs]
        simp only [TagTail.mk.injEq, true_and]
        omega
      rw [if_neg hslash]
      exact hgap.named hs hgt hslash

/-- Attributes are read inside the source, each round further on in it, as along the text. -/
theorem Stands.attrs {rounds : Nat} (h : Stands source o s) (hrounds : source.length - o < rounds) :
    ∃ attrs stop, attrsFrom? source rounds o = some (attrs, stop) ∧ o ≤ stop.offset ∧
      stop.offset ≤ source.length ∧
      lexAttrs o s = ⟨attrs, stop.problem, stop.selfClosing, stop.offset - o⟩ := by
  induction rounds generalizing o s with
  | zero => omega
  | succ rounds ih =>
      obtain ⟨r, hr, hgoes⟩ := h.attr
      rw [attrsFrom?, hr]
      cases r with
      | inl stop =>
          obtain ⟨hle, hle', htail⟩ := hgoes
          refine ⟨[], stop, rfl, hle, hle', ?_⟩
          rw [htail, Nat.zero_add]
      | inr next =>
          obtain ⟨a, next⟩ := next
          obtain ⟨hlt, hle, htail⟩ := hgoes
          obtain ⟨attrs, stop, hattrs, hle', hle'', hnext⟩ := ih (Stands.of_le hle) (by omega)
          refine ⟨a :: attrs, stop, by simp [hattrs], by omega, hle'', ?_⟩
          rw [htail, hnext, TagTail.consAttr]
          congr 1
          change stop.offset - next + (0 + (next - o)) = stop.offset - o
          omega

end AttributesOfStanding

end TagLoom.Template

import Mathlib.Tactic.ByContra
import TagLoom.Proofs.Template.Extent
import TagLoom.Proofs.Template.Regions

/-!
# Attributes in a longer source

The attributes of a finished opening tag are read the same whatever follows the tag, and further
into a source they are the same attributes further on.
-/

namespace TagLoom

/-! ## Runs of bytes -/

section Runs

variable {p : UInt8 → Bool} {s rest : Bytes} {c : UInt8}

theorem length_of_dropWhile (h : s.dropWhile p = c :: rest) :
    s.length = (s.takeWhile p).length + rest.length + 1 := by
  have hsplit := congrArg List.length (List.takeWhile_append_dropWhile (p := p) (l := s))
  rw [List.length_append, h, List.length_cons] at hsplit
  omega

theorem takeWhile_append_of_dropWhile (h : s.dropWhile p = c :: rest) (z : Bytes) :
    (s ++ z).takeWhile p = s.takeWhile p := by
  have hlen := length_of_dropWhile h
  rw [List.takeWhile_append, if_neg (by omega)]

theorem dropWhile_append_of_dropWhile (h : s.dropWhile p = c :: rest) (z : Bytes) :
    (s ++ z).dropWhile p = c :: (rest ++ z) := by
  rw [List.dropWhile_append, h]
  rfl

theorem drop_takeWhile (p : UInt8 → Bool) (s : Bytes) :
    s.drop (s.takeWhile p).length = s.dropWhile p := by
  have hsplit := List.takeWhile_append_dropWhile (p := p) (l := s)
  calc s.drop (s.takeWhile p).length
      = (s.takeWhile p ++ s.dropWhile p).drop (s.takeWhile p).length := by rw [hsplit]
    _ = s.dropWhile p := List.drop_left

end Runs

namespace Name

variable {c : UInt8}

theorem leading_cons (hc : isStart c = true) (rest : Bytes) :
    leading (c :: rest) = c :: rest.takeWhile isPart := if_pos hc

theorem isStart_of_leading {rest : Bytes} (h : (leading (c :: rest)).isEmpty = false) :
    isStart c = true := by
  by_contra hc
  rw [leading, if_neg hc] at h
  cases h

/-- A name that ends inside a text is the same however the text goes on. -/
theorem leading_append {rest after : Bytes} {d : UInt8} (hc : isStart c = true)
    (h : rest.drop ((leading (c :: rest)).length - 1) = d :: after) (z : Bytes) :
    leading (c :: (rest ++ z)) = leading (c :: rest) := by
  rw [leading_cons hc, List.length_cons, Nat.add_sub_cancel, drop_takeWhile] at h
  rw [leading_cons hc, leading_cons hc, takeWhile_append_of_dropWhile h]

end Name

namespace Template

/-! ## Further into a source -/

def AttrValue.shift (d : Nat) : AttrValue → AttrValue
  | .bare => .bare
  | .quoted offset value => .quoted (offset + d) value
  | .braced value => .braced value

def Attr.shift (d : Nat) (a : Attr) : Attr := ⟨a.offset + d, a.name, a.value.shift d⟩

def TagTail.shift (d : Nat) (t : TagTail) : TagTail :=
  { t with attrs := t.attrs.map (Attr.shift d) }

theorem TagTail.shift_consAttr (d : Nat) (a : Attr) (n : Nat) (t : TagTail) :
    (t.consAttr a n).shift d = (t.shift d).consAttr (a.shift d) n := rfl

/-! ## What stands after a name -/

/-- What an attribute is written as after its name; a value stands a number of bytes after the
name. -/
inductive Written where
  | bare
  | quoted (skipped : Nat) (value : Bytes)
  | braced (skipped : Nat) (value : Bytes)
  | broken

namespace Written

def length : Written → Nat
  | .bare | .broken => 0
  | .quoted skipped value | .braced skipped value => skipped + value.length + 2

def value (offset : Nat) : Written → AttrValue
  | .bare | .broken => .bare
  | .quoted skipped value => .quoted (offset + skipped + 1) value
  | .braced _ value => .braced value

theorem value_shift (offset d : Nat) (w : Written) :
    w.value (offset + d) = (w.value offset).shift d := by
  cases w with
  | quoted skipped text =>
      rw [value, value, AttrValue.shift]
      congr 1
      omega
  | _ => rfl

end Written

def writtenValue (skipped : Nat) : Bytes → Written
  | [] => .broken
  | q :: inner =>
      if q == '"'.toUInt8 || q == '\''.toUInt8 then
        match Scan.quoted? q inner with
        | none => .broken
        | some m => .quoted skipped (inner.take m)
      else if q == '\x7b'.toUInt8 then
        match Scan.closeBraces false 1 inner with
        | (_, false) => .broken
        | (m, true) => .braced skipped (inner.take m)
      else .broken

def written (after : Bytes) : Written :=
  match after.dropWhile Name.isSpace with
  | [] => .bare
  | e :: rest =>
      if e != '='.toUInt8 then .bare
      else writtenValue ((after.takeWhile Name.isSpace).length + 1 +
        (rest.takeWhile Name.isSpace).length) (rest.dropWhile Name.isSpace)

variable {o before skipped start : Nat} {s rest after value name : Bytes} {c e : UInt8}

theorem length_writtenValue (hw : writtenValue skipped s ≠ .broken) :
    skipped ≤ (writtenValue skipped s).length ∧
      (writtenValue skipped s).length ≤ skipped + s.length := by
  revert hw
  fun_cases writtenValue skipped s with
  | case3 q inner hq m hm =>
      intro _
      have hlt := Scan.quoted?_lt hm
      rw [Written.length, List.length_take_of_le (Nat.le_of_lt hlt), List.length_cons]
      exact ⟨by omega, by omega⟩
  | case5 q inner hq hbrace m hm =>
      intro _
      have hlt := Scan.closeBraces_lt (congrArg Prod.snd hm)
      rw [hm] at hlt
      rw [Written.length, List.length_take_of_le (Nat.le_of_lt hlt), List.length_cons]
      exact ⟨by omega, by omega⟩
  | _ => exact fun hw => absurd rfl hw

theorem writtenValue_append (hw : writtenValue skipped s ≠ .broken) (z : Bytes) :
    writtenValue skipped (s ++ z) = writtenValue skipped s := by
  revert hw
  fun_cases writtenValue skipped s with
  | case3 q inner hq m hm =>
      intro _
      have hle := Nat.le_of_lt (Scan.quoted?_lt hm)
      rw [List.cons_append, writtenValue, if_pos hq, Scan.quoted?_append hm]
      dsimp only
      rw [List.take_append_of_le_length hle]
  | case5 q inner hq hbrace m hm =>
      intro _
      have hok : (Scan.closeBraces false 1 inner).2 = true := by rw [hm]
      have hlt := Scan.closeBraces_lt hok
      rw [hm] at hlt
      rw [List.cons_append, writtenValue, if_neg hq, if_pos hbrace, Scan.closeBraces_append hok, hm]
      dsimp only
      rw [List.take_append_of_le_length (Nat.le_of_lt hlt)]
  | _ => exact fun hw => absurd rfl hw

theorem written_bare (h : (after.dropWhile Name.isSpace).head? ≠ some '='.toUInt8) :
    written after = .bare := by
  rw [written]
  split
  · rfl
  · rename_i hafter
    rw [hafter, List.head?_cons] at h
    exact if_pos (by simpa using h)

theorem written_equals (h : after.dropWhile Name.isSpace = '='.toUInt8 :: rest) :
    written after = writtenValue ((after.takeWhile Name.isSpace).length + 1 +
      (rest.takeWhile Name.isSpace).length) (rest.dropWhile Name.isSpace) := by
  rw [written, h]
  exact if_neg (by simp)

theorem drop_value (h : after.dropWhile Name.isSpace = e :: rest) :
    after.drop ((after.takeWhile Name.isSpace).length + 1 + (rest.takeWhile Name.isSpace).length) =
      rest.dropWhile Name.isSpace := by
  rw [← List.drop_drop, ← List.drop_drop, drop_takeWhile, h, List.drop_succ_cons, List.drop_zero,
    drop_takeWhile]

theorem length_written (after : Bytes) : (written after).length ≤ after.length := by
  by_cases hequals : ∃ rest, after.dropWhile Name.isSpace = '='.toUInt8 :: rest
  · obtain ⟨rest, hafter⟩ := hequals
    have hlen := length_of_dropWhile hafter
    have hlen' := congrArg List.length (List.takeWhile_append_dropWhile (p := Name.isSpace) (l := rest))
    rw [List.length_append] at hlen'
    rw [written_equals hafter]
    by_cases hw : writtenValue ((after.takeWhile Name.isSpace).length + 1 +
        (rest.takeWhile Name.isSpace).length) (rest.dropWhile Name.isSpace) = .broken
    · rw [hw]
      exact Nat.zero_le _
    · have hle := (length_writtenValue hw).2
      omega
  · rw [written_bare fun h => hequals (List.head?_eq_some_iff.1 h)]
    exact Nat.zero_le _

theorem written_append (h : after.dropWhile Name.isSpace = e :: rest) (hw : written after ≠ .broken)
    (z : Bytes) : written (after ++ z) = written after := by
  have happend := dropWhile_append_of_dropWhile h z
  by_cases he : e = '='.toUInt8
  · subst he
    rw [written_equals h] at hw ⊢
    rw [written_equals happend, takeWhile_append_of_dropWhile h]
    cases hvalue : rest.dropWhile Name.isSpace with
    | nil =>
        rw [hvalue] at hw
        exact absurd rfl hw
    | cons q inner =>
        rw [dropWhile_append_of_dropWhile hvalue, takeWhile_append_of_dropWhile hvalue, ← hvalue]
        rw [← List.cons_append, ← hvalue]
        exact writtenValue_append hw z
  · rw [written_bare (by simpa [happend] using he), written_bare (by simpa [h] using he)]

theorem slashGt_eq : Bytes.ofString "/>" = ['/'.toUInt8, '>'.toUInt8] := by decide

theorem not_slash (hc : Name.isStart c = true) (rest : Bytes) :
    ¬ Bytes.startsWith (c :: rest) "/>" = true := by
  intro hslash
  obtain ⟨t, ht⟩ := List.isPrefixOf_iff_prefix.1 hslash
  rw [slashGt_eq] at ht
  cases ht
  exact absurd hc (by decide)

theorem not_gt (hc : Name.isStart c = true) : ¬ (c == '>'.toUInt8) = true := by
  intro hgt
  rw [eq_of_beq hgt] at hc
  exact absurd hc (by decide)

theorem TagTail.resync_fields (problem : Nat × TagProblem) (n : Nat) (s : Bytes) :
    (TagTail.resync problem n s).problem ≠ none ∧ (TagTail.resync problem n s).attrs = [] := by
  rw [TagTail.resync]
  split
  · exact ⟨Option.some_ne_none _, rfl⟩
  · exact ⟨Option.some_ne_none _, rfl⟩

def valueTail (start : Nat) (name : Bytes) (before o : Nat) : Bytes → TagTail
  | [] => TagTail.skip (o, .unquotedValue name) before []
  | q :: inner =>
      if q == '"'.toUInt8 || q == '\''.toUInt8 then
        match Scan.quoted? q inner with
        | none => TagTail.resync (o, .openValue name) before (q :: inner)
        | some m => (lexAttrs (o + m + 2) (inner.drop (m + 1))).consAttr
            ⟨start, name, .quoted (o + 1) (inner.take m)⟩ (before + m + 2)
      else if q == '\x7b'.toUInt8 then
        match Scan.closeBraces false 1 inner with
        | (_, false) => TagTail.resync (o, .openValue name) before (q :: inner)
        | (m, true) => (lexAttrs (o + m + 2) (inner.drop (m + 1))).consAttr
            ⟨start, name, .braced (inner.take m)⟩ (before + m + 2)
      else TagTail.skip (o, .unquotedValue name) before (q :: inner)

theorem valueTail_broken (hw : writtenValue skipped s = .broken) :
    (valueTail start name before o s).problem ≠ none ∧ (valueTail start name before o s).attrs = [] := by
  revert hw
  fun_cases valueTail start name before o s with
  | case2 => exact fun _ => TagTail.resync_fields _ _ _
  | case3 q inner hq m hm => simp [writtenValue, hq, hm]
  | case4 => exact fun _ => TagTail.resync_fields _ _ _
  | case5 q inner hq hbrace m hm => simp [writtenValue, hq, hbrace, hm]
  | _ => exact fun _ => ⟨Option.some_ne_none _, rfl⟩

theorem valueTail_whole (hw : writtenValue skipped s ≠ .broken) :
    valueTail start name (before + skipped) (o + skipped) s =
      (lexAttrs (o + (writtenValue skipped s).length)
        (s.drop ((writtenValue skipped s).length - skipped))).consAttr
          ⟨start, name, (writtenValue skipped s).value o⟩
          (before + (writtenValue skipped s).length) := by
  have hnext {q : UInt8} {inner : Bytes} {m : Nat} (hm : m < inner.length) :
      (q :: inner).drop (skipped + (inner.take m).length + 2 - skipped) = inner.drop (m + 1) := by
    rw [List.length_take_of_le (Nat.le_of_lt hm), Nat.add_assoc, Nat.add_sub_cancel_left,
      List.drop_succ_cons]
  revert hw
  fun_cases writtenValue skipped s with
  | case3 q inner hq m hm =>
      intro _
      have hlt := Scan.quoted?_lt hm
      rw [valueTail, if_pos hq, hm, Written.length, hnext hlt,
        List.length_take_of_le (Nat.le_of_lt hlt)]
      simp only [Written.value, Nat.add_assoc]
  | case5 q inner hq hbrace m hm =>
      intro _
      have hlt := Scan.closeBraces_lt (congrArg Prod.snd hm)
      rw [hm] at hlt
      rw [valueTail, if_neg hq, if_pos hbrace, hm, Written.length, hnext hlt,
        List.length_take_of_le (Nat.le_of_lt hlt)]
      simp only [Written.value, Nat.add_assoc]
  | _ => exact fun hw => absurd rfl hw

theorem lexAttrs_bare (hs : s.dropWhile Name.isSpace = c :: rest) (hc : Name.isStart c = true)
    (h : ((rest.drop ((Name.leading (c :: rest)).length - 1)).dropWhile Name.isSpace).head? ≠
      some '='.toUInt8) :
    let gap := (s.takeWhile Name.isSpace).length
    let name := Name.leading (c :: rest)
    lexAttrs o s = (lexAttrs (o + gap + name.length) (rest.drop (name.length - 1))).consAttr
      ⟨o + gap, name, .bare⟩ (gap + name.length) := by
  intro gap name
  have hname : ¬ name.isEmpty = true := by simp [name, Name.leading_cons hc]
  rw [lexAttrs.eq_def]
  split
  · rename_i hnil
    rw [hs] at hnil
    cases hnil
  rename_i heq
  rw [hs] at heq
  cases heq
  rw [if_neg (not_gt hc), if_neg (not_slash hc rest)]
  dsimp only
  rw [if_neg hname]
  split
  · rfl
  · rename_i hafter
    rw [hafter, List.head?_cons] at h
    exact if_pos (by simpa using h)

theorem lexAttrs_equals
    (hs : s.dropWhile Name.isSpace = c :: rest) (hc : Name.isStart c = true)
    (hvalue : (rest.drop ((Name.leading (c :: rest)).length - 1)).dropWhile Name.isSpace =
      '='.toUInt8 :: value) :
    let gap := (s.takeWhile Name.isSpace).length
    let name := Name.leading (c :: rest)
    let after := rest.drop (name.length - 1)
    let k := name.length + (after.takeWhile Name.isSpace).length + 1 +
      (value.takeWhile Name.isSpace).length
    lexAttrs o s = valueTail (o + gap) name (gap + k) (o + gap + k)
      (value.dropWhile Name.isSpace) := by
  intro gap name after k
  have hname : name.isEmpty = false := by simp [name, Name.leading_cons hc]
  have hn : 1 ≤ name.length := by simp [name, Name.leading_cons hc]
  have hdrop {q : UInt8} {inner : Bytes} (hq : value.dropWhile Name.isSpace = q :: inner) (m : Nat) :
      rest.drop (k + m + 1) = inner.drop (m + 1) := by
    have hvalue' : rest.drop (name.length - 1 + (after.takeWhile Name.isSpace).length) =
        '='.toUInt8 :: value := by
      rw [← List.drop_drop, drop_takeWhile, hvalue]
    have hinner : rest.drop (name.length - 1 + (after.takeWhile Name.isSpace).length +
        ((value.takeWhile Name.isSpace).length + 1)) = q :: inner := by
      rw [← List.drop_drop, hvalue', List.drop_succ_cons, drop_takeWhile, hq]
    rw [show k + m + 1 = name.length - 1 + (after.takeWhile Name.isSpace).length +
        ((value.takeWhile Name.isSpace).length + 1) + (m + 2) by omega, ← List.drop_drop, hinner,
      List.drop_succ_cons]
  generalize htail : lexAttrs o s = tail
  rw [lexAttrs.eq_def] at htail
  split at htail
  · rename_i hnil
    rw [hs] at hnil
    cases hnil
  rename_i heq
  rw [hs] at heq
  cases heq
  rw [if_neg (not_gt hc), if_neg (not_slash hc rest)] at htail
  dsimp only at htail
  rw [if_neg (by simpa using hname)] at htail
  rw [hvalue] at htail
  dsimp only at htail
  rw [if_neg (by simp)] at htail
  cases hq : value.dropWhile Name.isSpace with
  | nil =>
      rw [hq] at htail
      exact htail.symm
  | cons q inner =>
      rw [hq] at htail
      dsimp only at htail
      rw [valueTail]
      split at htail
      · rename_i hquote
        rw [if_pos hquote]
        cases hm : Scan.quoted? q inner with
        | none =>
            rw [hm] at htail
            exact htail.symm
        | some m =>
            rw [hm] at htail
            dsimp only
            rw [← hdrop hq]
            exact htail.symm
      · rename_i hquote
        rw [if_neg hquote]
        split at htail
        · rename_i hbrace
          rw [if_pos hbrace]
          rw [Scan.braces_cons hbrace] at htail
          cases hm : Scan.closeBraces false 1 inner with
          | mk m ok =>
              rw [hm] at htail
              cases ok with
              | false => exact htail.symm
              | true =>
                  dsimp only
                  rw [← hdrop hq]
                  exact htail.symm
        · rename_i hbrace
          rw [if_neg hbrace]
          exact htail.symm

theorem lexAttrs_name (hs : s.dropWhile Name.isSpace = c :: rest) (hc : Name.isStart c = true) :
    let gap := (s.takeWhile Name.isSpace).length
    let name := Name.leading (c :: rest)
    let n := name.length
    let after := rest.drop (n - 1)
    let w := written after
    (w = .broken → (lexAttrs o s).problem ≠ none ∧ (lexAttrs o s).attrs = []) ∧
      (w ≠ .broken → lexAttrs o s =
        (lexAttrs (o + gap + n + w.length) (after.drop w.length)).consAttr
          ⟨o + gap, name, w.value (o + gap + n)⟩ (gap + n + w.length)) := by
  intro gap name n after w
  by_cases hequals : ∃ value, after.dropWhile Name.isSpace = '='.toUInt8 :: value
  · obtain ⟨value, hvalue⟩ := hequals
    have htail : lexAttrs o s = _ := lexAttrs_equals hs hc hvalue
    have hskip := drop_value hvalue
    have hw : w = _ := written_equals hvalue
    have hsum : n + (after.takeWhile Name.isSpace).length + 1 + (value.takeWhile Name.isSpace).length =
        n + ((after.takeWhile Name.isSpace).length + 1 + (value.takeWhile Name.isSpace).length) := by
      omega
    rw [htail, hw, hsum]
    generalize (after.takeWhile Name.isSpace).length + 1 + _ = skipped at hskip
    refine ⟨valueTail_broken, fun hwhole => ?_⟩
    have hdrop (k : Nat) (hk : skipped ≤ k) :
        (value.dropWhile Name.isSpace).drop (k - skipped) = after.drop k := by
      rw [← hskip, List.drop_drop, Nat.add_sub_cancel' hk]
    rw [← Nat.add_assoc, ← Nat.add_assoc, valueTail_whole hwhole,
      hdrop _ (length_writtenValue hwhole).1]
  · have hne : (after.dropWhile Name.isSpace).head? ≠ some '='.toUInt8 :=
      fun h => hequals (List.head?_eq_some_iff.1 h)
    have hw : w = .bare := written_bare hne
    rw [hw]
    exact ⟨nofun, fun _ => lexAttrs_bare hs hc hne⟩

theorem problem_of_blank (hs : s.dropWhile Name.isSpace = []) : (lexAttrs o s).problem ≠ none := by
  rw [lexAttrs.eq_def]
  split
  · exact Option.some_ne_none _
  · rename_i heq
    rw [hs] at heq
    cases heq

theorem lexAttrs_cases (hs : s.dropWhile Name.isSpace = c :: rest)
    (h : (lexAttrs o s).problem = none) :
    c = '>'.toUInt8 ∨ (c = '/'.toUInt8 ∧ rest.head? = some '>'.toUInt8) ∨
      Name.isStart c = true := by
  rw [lexAttrs.eq_def] at h
  split at h
  · cases h
  rename_i heq
  rw [hs] at heq
  cases heq
  split at h
  · rename_i hc
    exact .inl (eq_of_beq hc)
  split at h
  · rename_i hslash
    obtain ⟨t, ht⟩ := List.isPrefixOf_iff_prefix.1 hslash
    rw [slashGt_eq] at ht
    cases ht
    exact .inr (.inl ⟨rfl, rfl⟩)
  dsimp only at h
  split at h
  · cases h
  · rename_i hname
    exact .inr (.inr (Name.isStart_of_leading (by simpa using hname)))

theorem lexAttrs_close (hs : s.dropWhile Name.isSpace = '>'.toUInt8 :: rest) :
    lexAttrs o s = ⟨[], none, false, (s.takeWhile Name.isSpace).length + 1⟩ := by
  rw [lexAttrs.eq_def]
  split
  · rename_i heq
    rw [hs] at heq
    cases heq
  · rename_i heq
    rw [hs] at heq
    cases heq
    rfl

theorem lexAttrs_selfClose (hs : s.dropWhile Name.isSpace = '/'.toUInt8 :: '>'.toUInt8 :: rest) :
    lexAttrs o s = ⟨[], none, true, (s.takeWhile Name.isSpace).length + 2⟩ := by
  rw [lexAttrs.eq_def]
  split
  · rename_i heq
    rw [hs] at heq
    cases heq
  · rename_i heq
    rw [hs] at heq
    cases heq
    have hslash : Bytes.startsWith ('/'.toUInt8 :: '>'.toUInt8 :: rest) "/>" = true := by
      rw [Bytes.startsWith, slashGt_eq]
      simp
    rw [if_neg (by decide), if_pos hslash]

theorem lexAttrs_next (hs : s.dropWhile Name.isSpace = c :: rest) (hc : Name.isStart c = true)
    (h : (lexAttrs o s).problem = none) :
    let gap := (s.takeWhile Name.isSpace).length
    let name := Name.leading (c :: rest)
    let after := rest.drop (name.length - 1)
    let w := written after
    let next := lexAttrs (o + gap + name.length + w.length) (after.drop w.length)
    w ≠ .broken ∧ (∃ e after', after.dropWhile Name.isSpace = e :: after') ∧ next.problem = none ∧
      lexAttrs o s = next.consAttr ⟨o + gap, name, w.value (o + gap + name.length)⟩
        (gap + name.length + w.length) := by
  intro gap name after w next
  obtain ⟨hbroken, hwhole⟩ := lexAttrs_name (o := o) hs hc
  have hw : w ≠ .broken := fun hw => (hbroken hw).1 h
  have heq := hwhole hw
  have hnext : next.problem = none := by
    rw [heq] at h
    exact h
  refine ⟨hw, ?_, hnext, heq⟩
  cases hafter : after.dropWhile Name.isSpace with
  | cons e after' => exact ⟨e, after', rfl⟩
  | nil =>
      have hbare : w = .bare := by simp only [w, written, hafter]
      have hblank : (after.drop w.length).dropWhile Name.isSpace = [] := by rw [hbare]; exact hafter
      exact absurd hnext (problem_of_blank hblank)

theorem length_lexAttrs (h : (lexAttrs o s).problem = none) : (lexAttrs o s).length ≤ s.length := by
  induction hn : s.length using Nat.strongRecOn generalizing o s with
  | _ n ih =>
    cases hs : s.dropWhile Name.isSpace with
    | nil => exact absurd h (problem_of_blank hs)
    | cons c rest =>
      have hlen := length_of_dropWhile hs
      rcases lexAttrs_cases hs h with rfl | ⟨rfl, hgt⟩ | hc
      · rw [lexAttrs_close hs]
        dsimp only
        omega
      · obtain ⟨rest, rfl⟩ := List.head?_eq_some_iff.1 hgt
        rw [lexAttrs_selfClose hs]
        rw [List.length_cons] at hlen
        dsimp only
        omega
      · obtain ⟨-, ⟨e, after', hafter⟩, hnext, heq⟩ := lexAttrs_next hs hc h
        have hlen' := length_of_dropWhile hafter
        have hw := length_written (rest.drop ((Name.leading (c :: rest)).length - 1))
        have hrest := ih _ ?_ hnext rfl
        · rw [heq, TagTail.consAttr]
          simp only [List.length_drop] at hlen' hw hrest ⊢
          omega
        · simp only [List.length_drop] at hlen' ⊢
          omega

/-- An attribute that stands before an offset. -/
structure Attr.Within (total : Nat) (a : Attr) : Prop where
  start : a.offset ≤ total
  value : ∀ base v, a.value = .quoted base v → base + v.length ≤ total

theorem attrs_eq_nil (h : ∀ c rest, s.dropWhile Name.isSpace = c :: rest → Name.isStart c = false) :
    (lexAttrs o s).attrs = [] := by
  rw [lexAttrs.eq_def]
  split
  · rfl
  rename_i c rest hs
  split
  · rfl
  split
  · rfl
  have hname : (Name.leading (c :: rest)).isEmpty = true := by
    rw [Name.leading, if_neg (by simp [h c rest hs])]
    rfl
  dsimp only
  rw [if_pos hname]
  rfl

theorem within_lexAttrs (o : Nat) (s : Bytes) :
    ∀ a ∈ (lexAttrs o s).attrs, a.Within (o + s.length) := by
  induction hn : s.length using Nat.strongRecOn generalizing o s with
  | _ n ih =>
    by_cases hstart : ∃ c rest, s.dropWhile Name.isSpace = c :: rest ∧ Name.isStart c = true
    · obtain ⟨c, rest, hs, hc⟩ := hstart
      have hlen := length_of_dropWhile hs
      obtain ⟨hbroken, hwhole⟩ := lexAttrs_name (o := o) hs hc
      have hw := length_written (rest.drop ((Name.leading (c :: rest)).length - 1))
      have hname : 1 ≤ (Name.leading (c :: rest)).length := by simp [Name.leading_cons hc]
      have hname' := (leading_starts (c :: rest)).length_le
      rw [List.length_drop] at hw
      rw [List.length_cons] at hname'
      by_cases hwritten : written (rest.drop ((Name.leading (c :: rest)).length - 1)) = .broken
      · rw [(hbroken hwritten).2]
        simp
      · rw [hwhole hwritten]
        refine List.forall_mem_cons.2 ⟨⟨?_, fun base v hv => ?_⟩, ?_⟩
        · change o + (s.takeWhile Name.isSpace).length ≤ o + n
          omega
        · cases hvalue : written (rest.drop ((Name.leading (c :: rest)).length - 1)) with
          | quoted skipped text =>
              rw [hvalue, Written.length] at hw
              rw [hvalue] at hv
              cases hv
              omega
          | _ => rw [hvalue] at hv; cases hv
        · generalize written (rest.drop ((Name.leading (c :: rest)).length - 1)) = w at hw
          intro a ha
          have hnext := ih _ ?_ _ _ rfl a ha
          · refine ⟨Nat.le_trans hnext.start ?_,
              fun base v hv => Nat.le_trans (hnext.value base v hv) ?_⟩
            · simp only [List.length_drop]
              omega
            · simp only [List.length_drop]
              omega
          · simp only [List.length_drop]
            omega
    · rw [attrs_eq_nil fun c rest hs => by simpa using fun hc => hstart ⟨c, rest, hs, hc⟩]
      simp

theorem lexAttrs_append (h : (lexAttrs o s).problem = none) (d : Nat) (z : Bytes) :
    lexAttrs (o + d) (s ++ z) = (lexAttrs o s).shift d := by
  induction hn : s.length using Nat.strongRecOn generalizing o s with
  | _ n ih =>
    cases hs : s.dropWhile Name.isSpace with
    | nil => exact absurd h (problem_of_blank hs)
    | cons c rest =>
      have hlen := length_of_dropWhile hs
      have htake := takeWhile_append_of_dropWhile hs z
      have hdrop := dropWhile_append_of_dropWhile hs z
      rcases lexAttrs_cases hs h with rfl | ⟨rfl, hgt⟩ | hc
      · rw [lexAttrs_close hs, lexAttrs_close hdrop, htake]
        rfl
      · obtain ⟨rest, rfl⟩ := List.head?_eq_some_iff.1 hgt
        rw [lexAttrs_selfClose hs, lexAttrs_selfClose hdrop, htake]
        rfl
      · obtain ⟨hw, ⟨e, after', hafter⟩, hnext, heq⟩ := lexAttrs_next hs hc h
        have hlen' := length_of_dropWhile hafter
        rw [List.length_drop] at hlen'
        have hname : Name.leading (c :: (rest ++ z)) = Name.leading (c :: rest) := by
          cases hrest : rest.drop ((Name.leading (c :: rest)).length - 1) with
          | nil => rw [hrest] at hafter; cases hafter
          | cons d after => exact Name.leading_append hc hrest z
        have hrest : (rest ++ z).drop ((Name.leading (c :: rest)).length - 1) =
            rest.drop ((Name.leading (c :: rest)).length - 1) ++ z :=
          List.drop_append_of_le_length (by omega)
        have hwhole := (lexAttrs_name (o := o + d) hdrop hc).2
        rw [hname, hrest, written_append hafter hw, htake] at hwhole
        have hle := length_written (rest.drop ((Name.leading (c :: rest)).length - 1))
        rw [hwhole hw, heq, TagTail.shift_consAttr, List.drop_append_of_le_length hle]
        have hshorter : ((rest.drop ((Name.leading (c :: rest)).length - 1)).drop
            (written (rest.drop ((Name.leading (c :: rest)).length - 1))).length).length < n := by
          simp only [List.length_drop]
          omega
        rw [← ih _ hshorter hnext rfl, Attr.shift, ← Written.value_shift]
        simp only [Nat.add_right_comm _ d]

end Template

end TagLoom

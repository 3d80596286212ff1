import TagLoom.Proofs.Bytes.Text
import TagLoom.Proofs.Template.Lexeme

/-!
# Sources inside a definition

A source without faults that does not end inside a comment or raw text is cut into the same tokens
inside a definition as alone: no mark that opens in it looks beyond its end.
-/

namespace TagLoom

/-! ## Searches in a longer text -/

namespace Bytes

variable {s m z : Bytes}

theorem startsWith_append_of_le (h : m.length ≤ s.length) (z : Bytes) :
    startsWith (s ++ z) m = startsWith s m := by
  rw [startsWith, startsWith, Bool.eq_iff_iff, List.isPrefixOf_iff_prefix,
    List.isPrefixOf_iff_prefix]
  exact ⟨fun hm => List.prefix_of_prefix_length_le hm (List.prefix_append s z) h,
    fun hm => hm.trans (List.prefix_append s z)⟩

/-- A mark that cannot go on with the next byte stands in a text or does not stand there. -/
theorem startsWith_append {c d e : UInt8} (hc : c ∉ m) (s z : Bytes) :
    startsWith (e :: (s ++ c :: z)) (d :: m) = startsWith (e :: s) (d :: m) := by
  have htail : m.isPrefixOf (s ++ c :: z) = m.isPrefixOf s := by
    induction m generalizing s with
    | nil => simp
    | cons a m ih =>
        obtain ⟨hne, hc⟩ := List.ne_and_not_mem_of_not_mem_cons hc
        cases s with
        | nil => simp [List.isPrefixOf, Ne.symm hne]
        | cons b s => simp [List.isPrefixOf, ih hc s]
  simp only [startsWith, List.isPrefixOf, htail]

theorem indexOf?_append {i : Nat} (h : indexOf? s m = some i) (z : Bytes) :
    i + m.length ≤ s.length ∧ indexOf? (s ++ z) m = some i := by
  induction s generalizing i with
  | nil =>
      rw [indexOf?] at h
      split at h
      · rename_i hm
        cases h
        have hnil : m = [] := by simpa [startsWith] using hm
        subst hnil
        refine ⟨Nat.le_refl _, ?_⟩
        rw [indexOf?.eq_def, startsWith, List.isPrefixOf, if_pos rfl]
      · cases h
  | cons c s ih =>
      rw [Template.indexOf?_cons] at h
      split at h
      · rename_i hm
        cases h
        have hle := (List.isPrefixOf_iff_prefix.1 hm).length_le
        rw [List.cons_append, Template.indexOf?_cons, ← List.cons_append,
          startsWith_append_of_le hle, if_pos hm]
        exact ⟨by omega, rfl⟩
      · rename_i hm
        obtain ⟨j, hj, rfl⟩ := Option.map_eq_some_iff.1 h
        obtain ⟨hle, hsame⟩ := ih hj
        rw [List.cons_append, Template.indexOf?_cons, ← List.cons_append,
          startsWith_append_of_le (by rw [List.length_cons]; omega), if_neg hm, hsame]
        exact ⟨by rw [List.length_cons]; omega, rfl⟩

end Bytes

theorem Name.leading_append_mark {c : UInt8} (hc : isPart c = false) (s z : Bytes) :
    leading (s ++ c :: z) = leading s := by
  have hstart : isStart c = false := by
    simp only [isPart, Bool.or_eq_false_iff] at hc
    exact hc.1.1.1.1
  cases s with
  | nil => simp [leading, hstart]
  | cons d s =>
      have htake : (s ++ c :: z).takeWhile isPart = s.takeWhile isPart := by
        rw [List.takeWhile_append]
        split
        · rename_i hall
          rw [List.takeWhile_cons, hc, if_neg Bool.false_ne_true, List.append_nil]
          exact ((List.takeWhile_prefix _).eq_of_length hall).symm
        · rfl
      rw [List.cons_append, leading, leading, htake]

namespace Template

theorem indexFold_le (m s : Bytes) : indexFold m s ≤ s.length := by
  induction s with
  | nil => exact Nat.le_refl _
  | cons c s ih =>
      rw [indexFold]
      split
      · exact Nat.zero_le _
      · exact Nat.succ_le_succ ih

theorem indexFold_append {m s : Bytes} (h : indexFold m s < s.length) (z : Bytes) :
    indexFold m s + m.length ≤ s.length ∧ indexFold m (s ++ z) = indexFold m s := by
  induction s with
  | nil => simp at h
  | cons c s ih =>
      rw [indexFold] at h
      split at h
      · rename_i hm
        have hle := (List.isPrefixOf_iff_prefix.1 hm).length_le
        rw [Bytes.lowerAscii, List.length_map, List.length_take] at hle
        rw [List.cons_append, indexFold, indexFold, ← List.cons_append,
          List.take_append_of_le_length (by omega), if_pos hm, if_pos hm]
        exact ⟨by omega, rfl⟩
      · rename_i hm
        obtain ⟨hle, hsame⟩ := ih (by simpa using h)
        rw [List.cons_append, indexFold, indexFold, ← List.cons_append,
          List.take_append_of_le_length (by rw [List.length_cons]; omega), if_neg hm, hsame,
          if_neg hm]
        exact ⟨by rw [List.length_cons]; omega, rfl⟩

/-! ## Definitions around a source -/

def defStart (tag : Bytes) : Bytes := "<t:def name=\"" ++ tag ++ "\">"

/-- The closing tag of a definition. -/
def defEnd : Bytes := "</t:def>"

/-- A definition whose body is a given source. -/
def enclosed (tag body : Bytes) : Bytes := defStart tag ++ body ++ defEnd

theorem defEnd_eq : defEnd = '<'.toUInt8 :: Bytes.ofString "/t:def>" := by decide

theorem inert_defEnd : Scan.Inert defEnd := by
  unfold Scan.Inert
  decide +kernel

theorem tagEnd_defEnd : Scan.tagEnd defEnd = defEnd.length := by cbv

theorem startsWith_append_defEnd {c d : UInt8} {m : Bytes} (hm : '<'.toUInt8 ∉ m) (s : Bytes) :
    Bytes.startsWith (c :: (s ++ defEnd)) (d :: m) = Bytes.startsWith (c :: s) (d :: m) := by
  rw [defEnd_eq]
  exact Bytes.startsWith_append hm s _

theorem startsWith_comment_defEnd (c : UInt8) (s : Bytes) :
    Bytes.startsWith (c :: (s ++ defEnd)) "<!--" = Bytes.startsWith (c :: s) "<!--" :=
  startsWith_append_defEnd (by decide) s

theorem startsWith_close_defEnd (c : UInt8) (s : Bytes) :
    Bytes.startsWith (c :: (s ++ defEnd)) "</" = Bytes.startsWith (c :: s) "</" :=
  startsWith_append_defEnd (by decide) s

theorem head?_append_defEnd (s : Bytes) :
    ((s ++ defEnd).head? == some '\x7b'.toUInt8) = (s.head? == some '\x7b'.toUInt8) := by
  cases s with
  | nil => decide
  | cons c rest => rfl

theorem leading_append_defEnd (s : Bytes) : Name.leading (s ++ defEnd) = Name.leading s := by
  rw [defEnd_eq]
  exact Name.leading_append_mark (by decide) s _

/-! ## Lexemes -/

def Token.shift (d : Nat) : Token → Token
  | .text offset s => .text (offset + d) s
  | .interpolation offset s => .interpolation (offset + d) s
  | .opening offset name attrs problem selfClosing =>
      .opening (offset + d) name (attrs.map (Attr.shift d)) (problem.map fun p => (p.1 + d, p.2))
        selfClosing
  | .closing offset name malformed => .closing (offset + d) name malformed

def Token.Clean : Token → Prop
  | .text _ _ => True
  | .interpolation _ s => s ≠ none
  | .opening _ _ _ problem _ => problem = none
  | .closing _ _ malformed => malformed = false

def Found.shift (d : Nat) : Found → Found
  | .text piece => .text piece
  | .token t => .token (t.shift d)

def Found.Clean : Found → Prop
  | .text _ => True
  | .token t => t.Clean

/-- The raw text ahead in a source that ends at an offset, and in a longer one it is a part of. -/
def Follows (d total : Nat) : Option RawAhead → Option RawAhead → Prop
  | none, after => after = none
  | some ⟨name, some start⟩, after => after = some ⟨name, some (start + d)⟩
  | some ⟨name, none⟩, after =>
      ∃ start, after = some ⟨name, start⟩ ∧ ∀ k ∈ start, total + d < k

variable {d total offset : Nat} {ahead ahead' : Option RawAhead} {c : UInt8} {rest s : Bytes}

theorem Follows.rawAt (h : Follows d total ahead ahead') (hle : offset ≤ total) :
    rawAt ahead' (offset + d) = rawAt ahead offset := by
  match ahead, h with
  | none, h => rw [h]; rfl
  | some ⟨name, some start⟩, h =>
      rw [h]
      simp [Template.rawAt]
  | some ⟨name, none⟩, ⟨start, hstart, hafter⟩ =>
      rw [hstart]
      cases start with
      | none => rfl
      | some k =>
          have hk := hafter k rfl
          simp [Template.rawAt]
          omega

/-- A lexeme in a source, and the one in a longer source it is a part of. -/
structure Lexeme.Kept (d total : Nat) (left : Nat) (x x' : Lexeme) : Prop where
  found : x'.found = x.found.shift d
  length : x'.length = x.length
  inside : x.length ≤ left
  ahead : Follows d total x.ahead x'.ahead

theorem drop_cons_append {n : Nat} (h : n ≤ (c :: rest).length) (z : Bytes) :
    (c :: (rest ++ z)).drop n = (c :: rest).drop n ++ z := by
  rw [← List.cons_append, List.drop_append_of_le_length h]

theorem take_cons_append {n : Nat} (h : n ≤ (c :: rest).length) (z : Bytes) :
    (c :: (rest ++ z)).take n = (c :: rest).take n := by
  rw [← List.cons_append, List.take_append_of_le_length h]

theorem length_pos_of_close (h : Bytes.startsWith (c :: rest) "</" = true) : 1 ≤ rest.length := by
  have hlen := (List.isPrefixOf_iff_prefix.1 h).length_le
  have hmark : (Bytes.ofString "</").length = 2 := by decide
  rw [hmark, List.length_cons] at hlen
  omega

theorem length_leading_le {name : Bytes} (h : Name.leading rest = name) (c : UInt8) :
    1 + name.length ≤ (c :: rest).length := by
  rw [← h, List.length_cons, Nat.add_comm]
  exact Nat.succ_le_succ (leading_starts rest).length_le

/-- The start of raw text in a source, and in the one that goes on with a closing tag. -/
theorem follows_rawText (name : Bytes) (offset d : Nat) (s : Bytes) :
    Follows d (offset + s.length) (some ⟨name, (Scan.tagEnd? s).map (offset + ·)⟩)
      (some ⟨name, (Scan.tagEnd? (s ++ defEnd)).map (offset + d + ·)⟩) := by
  cases htag : Scan.tagEnd? s with
  | some k =>
      rw [Scan.tagEnd?_append htag]
      exact congrArg (fun k => some (RawAhead.mk name (some k))) (Nat.add_right_comm offset d k)
  | none =>
      refine ⟨_, rfl, fun k hk => ?_⟩
      obtain ⟨j, hj, rfl⟩ := Option.map_eq_some_iff.1 hk
      -- the tag ends with the closing tag after the source
      have hend := Scan.tagEnd_append_of_none htag inert_defEnd tagEnd_defEnd
      have hmark : defEnd.length = 8 := by decide
      rw [Scan.tagEnd_eq, hj, Option.getD_some, List.length_append, hmark] at hend
      omega

/-! A lexeme of each kind is the same in front of a closing tag. -/

section Kept

variable {n : Nat} (hahead : Follows d (offset + rest.length + 1) ahead ahead')

include hahead

theorem kept_braces (hescape : ¬ (c == '\\'.toUInt8 && rest.head? == some '\x7b'.toUInt8) = true)
    (hc : (c == '\x7b'.toUInt8) = true) (hn : Scan.closeBraces true 1 rest = (n, true)) :
    Lexeme.Kept d (offset + rest.length + 1) (rest.length + 1)
      ⟨.token (.interpolation offset (some (rest.take n))), n + 2, ahead, none⟩
      (lexMark ahead' (offset + d) c (rest ++ defEnd)) := by
  have hok : (Scan.closeBraces true 1 rest).2 = true := by rw [hn]
  have hlt := Scan.closeBraces_lt hok
  rw [hn] at hlt
  rw [lexMark, head?_append_defEnd, if_neg hescape, if_pos hc, Scan.closeBraces_append hok, hn]
  dsimp only
  rw [List.take_append_of_le_length (Nat.le_of_lt hlt)]
  exact ⟨rfl, rfl, Nat.succ_le_succ hlt, hahead⟩

theorem kept_comment (hescape : ¬ (c == '\\'.toUInt8 && rest.head? == some '\x7b'.toUInt8) = true)
    (hc : ¬ (c == '\x7b'.toUInt8) = true) (hcomment : Bytes.startsWith (c :: rest) "<!--" = true)
    (hn : Bytes.indexOf? ((c :: rest).drop 4) "-->" = some n) :
    Lexeme.Kept d (offset + rest.length + 1) (rest.length + 1)
      ⟨.text ((c :: rest).take (n + 7)), n + 7, ahead, none⟩
      (lexMark ahead' (offset + d) c (rest ++ defEnd)) := by
  have hlen := (List.isPrefixOf_iff_prefix.1 hcomment).length_le
  have hmark : (Bytes.ofString "<!--").length = 4 := by decide
  have hmark' : (Bytes.ofString "-->").length = 3 := by decide
  obtain ⟨hle, hsame⟩ := Bytes.indexOf?_append hn defEnd
  rw [List.length_drop, hmark', List.length_cons] at hle
  rw [hmark, List.length_cons] at hlen
  have hdrop : (c :: (rest ++ defEnd)).drop 4 = (c :: rest).drop 4 ++ defEnd :=
    drop_cons_append hlen _
  have htake : (c :: (rest ++ defEnd)).take (n + 7) = (c :: rest).take (n + 7) :=
    take_cons_append (by rw [List.length_cons]; omega) _
  rw [lexMark, head?_append_defEnd, if_neg hescape, if_neg hc, startsWith_comment_defEnd,
    if_pos hcomment, hdrop, hsame]
  dsimp only
  rw [htake]
  exact ⟨rfl, rfl, by dsimp only; omega, hahead⟩

theorem kept_closing (hescape : ¬ (c == '\\'.toUInt8 && rest.head? == some '\x7b'.toUInt8) = true)
    (hc : ¬ (c == '\x7b'.toUInt8) = true) (hcomment : ¬ Bytes.startsWith (c :: rest) "<!--" = true)
    (hclose : Bytes.startsWith (c :: rest) "</" = true) {name after more : Bytes}
    (hname : Name.leading (rest.drop 1) = name) (hactive : Name.isActive name = true)
    (hafter : (rest.drop 1).drop name.length = after)
    (hmore : after.dropWhile Name.isSpace = '>'.toUInt8 :: more) :
    Lexeme.Kept d (offset + rest.length + 1) (rest.length + 1)
      ⟨.token (.closing offset name false),
        2 + name.length + (after.takeWhile Name.isSpace).length + 1, ahead, none⟩
      (lexMark ahead' (offset + d) c (rest ++ defEnd)) := by
  have hrest := length_pos_of_close hclose
  have hlen := (leading_starts (rest.drop 1)).length_le
  have hlen' := length_of_dropWhile hmore
  have hgap := takeWhile_append_of_dropWhile hmore defEnd
  have hend := dropWhile_append_of_dropWhile hmore defEnd
  rw [← drop_takeWhile, hgap] at hend
  rw [hname] at hlen
  rw [lexMark, head?_append_defEnd, if_neg hescape, if_neg hc, startsWith_comment_defEnd,
    if_neg hcomment, startsWith_close_defEnd, if_pos hclose, List.drop_append_of_le_length hrest,
    leading_append_defEnd, hname, if_pos hactive, List.drop_append_of_le_length hlen, hafter]
  dsimp only
  rw [hgap, hend]
  refine ⟨rfl, rfl, ?_, hahead⟩
  have hlength := congrArg List.length hafter
  simp only [List.length_drop] at hlen hlength ⊢
  omega

variable (hescape : ¬ (c == '\\'.toUInt8 && rest.head? == some '\x7b'.toUInt8) = true)
  (hc : ¬ (c == '\x7b'.toUInt8) = true) (hcomment : ¬ Bytes.startsWith (c :: rest) "<!--" = true)
  (hclose : ¬ Bytes.startsWith (c :: rest) "</" = true) (hlt : (c == '<'.toUInt8) = true)

include hescape hc hcomment hclose hlt

theorem kept_opening {name : Bytes} (hname : Name.leading rest = name)
    (hactive : Name.isActive name = true) {tail : TagTail}
    (htail : lexAttrs (offset + (1 + name.length)) ((c :: rest).drop (1 + name.length)) = tail)
    (hclean : tail.problem = none) :
    Lexeme.Kept d (offset + rest.length + 1) (rest.length + 1)
      ⟨.token (.opening offset name tail.attrs tail.problem tail.selfClosing),
        1 + name.length + tail.length, ahead, none⟩
      (lexMark ahead' (offset + d) c (rest ++ defEnd)) := by
  have hlen : 1 + name.length ≤ (c :: rest).length := length_leading_le hname c
  have htail' : lexAttrs (offset + d + (1 + name.length))
      ((c :: (rest ++ defEnd)).drop (1 + name.length)) = tail.shift d := by
    rw [drop_cons_append hlen, Nat.add_right_comm, lexAttrs_append (by rw [htail, hclean]), htail]
  have hinside := length_lexAttrs (by rw [htail, hclean])
  rw [htail, List.length_drop] at hinside
  rw [lexMark, head?_append_defEnd, if_neg hescape, if_neg hc, startsWith_comment_defEnd,
    if_neg hcomment, startsWith_close_defEnd, if_neg hclose, if_pos hlt, leading_append_defEnd,
    hname, if_pos hactive, htail']
  refine ⟨?_, rfl, ?_, hahead⟩
  · simp only [Found.shift, Token.shift, TagTail.shift, hclean, Option.map_none]
  · rw [List.length_cons] at hlen hinside
    dsimp only
    omega

theorem kept_plainTag {name : Bytes} (hname : Name.leading rest = name)
    (hactive : ¬ Name.isActive name = true) :
    Lexeme.Kept d (offset + rest.length + 1) (rest.length + 1)
      ⟨.text ((c :: rest).take (1 + name.length)), 1 + name.length,
        if isRawElement (Bytes.lowerAscii name) then some ⟨Bytes.lowerAscii name,
          (Scan.tagEnd? ((c :: rest).drop (1 + name.length))).map (offset + (1 + name.length) + ·)⟩
        else ahead, none⟩
      (lexMark ahead' (offset + d) c (rest ++ defEnd)) := by
  have hlen : 1 + name.length ≤ (c :: rest).length := length_leading_le hname c
  have hfollows := follows_rawText (Bytes.lowerAscii name) (offset + (1 + name.length)) d
    ((c :: rest).drop (1 + name.length))
  have htotal : offset + (1 + name.length) + ((c :: rest).drop (1 + name.length)).length =
      offset + rest.length + 1 := by
    simp only [List.length_drop, List.length_cons] at hlen ⊢
    omega
  rw [htotal, Nat.add_right_comm offset _ d] at hfollows
  rw [lexMark, head?_append_defEnd, if_neg hescape, if_neg hc, startsWith_comment_defEnd,
    if_neg hcomment, startsWith_close_defEnd, if_neg hclose, if_pos hlt, leading_append_defEnd,
    hname, if_neg hactive, take_cons_append hlen, drop_cons_append hlen]
  refine ⟨rfl, rfl, hlen, ?_⟩
  dsimp only
  split
  · exact hfollows
  · exact hahead

end Kept

theorem kept_lexMark (hahead : Follows d (offset + rest.length + 1) ahead ahead')
    (hclean : (lexMark ahead offset c rest).found.Clean)
    (hclosed : (lexMark ahead offset c rest).unclosed = none) :
    Lexeme.Kept d (offset + rest.length + 1) (rest.length + 1) (lexMark ahead offset c rest)
      (lexMark ahead' (offset + d) c (rest ++ defEnd)) := by
  have hpos : 1 ≤ rest.length + 1 := Nat.le_add_left 1 rest.length
  revert hclean hclosed
  fun_cases lexMark ahead offset c rest with
  | case1 h =>
      intro _ _
      have hlen : 2 ≤ rest.length + 1 := by
        cases rest with
        | nil => simp at h
        | cons e rest => simp
      rw [lexMark, head?_append_defEnd, if_pos h]
      exact ⟨rfl, rfl, hlen, hahead⟩
  | case2 h hc n hn => exact fun _ _ => kept_braces hahead h hc hn
  | case3 h hc n hn => exact fun hclean => absurd rfl hclean
  | case4 s h hc hcomment i hi => exact fun _ _ => kept_comment hahead h hc hcomment hi
  | case5 => exact fun _ hclosed => absurd hclosed (Option.some_ne_none _)
  | case6 s h hc hcomment hclose name hactive after gap closed n =>
      intro hclean _
      have hclosed : closed = true := by simpa [Found.Clean, Token.Clean] using hclean
      obtain ⟨more, hmore⟩ := List.head?_eq_some_iff.1 (eq_of_beq hclosed)
      rw [drop_takeWhile] at hmore
      have hn : n = 2 + name.length + gap + 1 := by simp only [n, hclosed, if_true]
      rw [hn, hclosed]
      exact kept_closing hahead h hc hcomment hclose rfl hactive rfl hmore
  | case7 s h hc hcomment hclose name hactive =>
      intro _ _
      have hname : Name.leading ((rest ++ defEnd).drop 1) = name := by
        rw [List.drop_append_of_le_length (length_pos_of_close hclose), leading_append_defEnd]
      rw [lexMark, head?_append_defEnd, if_neg h, if_neg hc, startsWith_comment_defEnd,
        if_neg hcomment, startsWith_close_defEnd, if_pos hclose, hname, if_neg hactive]
      exact ⟨rfl, rfl, hpos, hahead⟩
  | case8 s h hc hcomment hclose hlt name n hactive tail =>
      exact fun hclean _ => kept_opening hahead h hc hcomment hclose hlt rfl hactive rfl hclean
  | case9 s h hc hcomment hclose hlt name n hactive lower raw =>
      exact fun _ _ => kept_plainTag hahead h hc hcomment hclose hlt rfl hactive
  | case10 s h hc hcomment hclose hlt =>
      intro _ _
      rw [lexMark, head?_append_defEnd, if_neg h, if_neg hc, startsWith_comment_defEnd,
        if_neg hcomment, startsWith_close_defEnd, if_neg hclose, if_neg hlt]
      exact ⟨rfl, rfl, hpos, hahead⟩

theorem kept_lexeme (hahead : Follows d (offset + rest.length + 1) ahead ahead')
    (hclean : (lexeme ahead offset c rest).found.Clean)
    (hclosed : (lexeme ahead offset c rest).unclosed = none) :
    Lexeme.Kept d (offset + rest.length + 1) (rest.length + 1) (lexeme ahead offset c rest)
      (lexeme ahead' (offset + d) c (rest ++ defEnd)) := by
  have hle : offset ≤ offset + rest.length + 1 := by omega
  have hraw := hahead.rawAt hle
  rw [lexeme] at hclean hclosed ⊢
  rw [lexeme.eq_def ahead', hraw]
  cases hname : rawAt ahead offset with
  | none =>
      rw [hname] at hclean hclosed
      exact kept_lexMark hahead hclean hclosed
  | some name =>
      rw [hname] at hclean hclosed
      dsimp only at hclean hclosed ⊢
      by_cases hzero : indexFold ("</" ++ name) (c :: rest) = 0
      · have hsame := (indexFold_append (m := "</" ++ name) (s := c :: rest)
          (by rw [hzero]; exact Nat.succ_pos _) defEnd).2
        rw [List.cons_append, hzero] at hsame
        rw [if_pos hzero] at hclean hclosed
        rw [if_pos hzero, if_pos hsame]
        exact kept_lexMark rfl hclean hclosed
      · rw [if_neg hzero] at hclosed
        have hne : indexFold ("</" ++ name) (c :: rest) ≠ rest.length + 1 := by
          intro heq
          rw [if_pos heq] at hclosed
          cases hclosed
        have hlt : indexFold ("</" ++ name) (c :: rest) < (c :: rest).length :=
          Nat.lt_of_le_of_ne (indexFold_le _ _) hne
        have hsame := (indexFold_append hlt defEnd).2
        rw [List.cons_append] at hsame
        rw [if_neg hzero, hsame, if_neg hzero, ← List.cons_append,
          List.take_append_of_le_length (Nat.le_of_lt hlt)]
        exact ⟨rfl, rfl, Nat.le_of_lt hlt, rfl⟩

theorem lexMark_defEnd (ahead : Option RawAhead) (offset : Nat) :
    lexMark ahead offset '<'.toUInt8 "/t:def>" =
      ⟨.token (.closing offset "t:def" false), 8, ahead, none⟩ := by
  rfl

theorem lexemes_append (hahead : Follows d (offset + s.length) ahead ahead')
    (hclean : ∀ x ∈ lexemes ahead offset s, x.2.Clean) (hends : endsIn ahead offset s = none) :
    lexemes ahead' (offset + d) (s ++ defEnd) =
      (lexemes ahead offset s).map (fun x => (x.1 + d, x.2.shift d)) ++
        [(offset + s.length + d, Found.token (.closing (offset + s.length + d) "t:def" false))] := by
  fun_induction lexemes ahead offset s generalizing ahead' with
  | case1 ahead offset =>
      rw [endsIn, Option.map_eq_none_iff] at hends
      have hraw := (hahead.rawAt (Nat.le_refl _)).trans hends
      rw [List.nil_append, defEnd_eq, lexemes, lexeme.eq_def]
      change rawAt ahead' (offset + d) = none at hraw
      rw [hraw]
      dsimp only
      rw [lexMark_defEnd]
      have hdrop : ('<'.toUInt8 :: Bytes.ofString "/t:def>").drop 8 = [] := by decide
      dsimp only
      rw [hdrop, lexemes]
      rfl
  | case2 ahead offset c rest x =>
      rename_i ih
      rw [endsIn, Option.or_eq_none_iff] at hends
      obtain ⟨hfound, hrest⟩ := List.forall_mem_cons.1 hclean
      have hkept := kept_lexeme hahead hfound hends.1
      have hdrop : (c :: (rest ++ defEnd)).drop x.length = (c :: rest).drop x.length ++ defEnd :=
        drop_cons_append hkept.inside _
      have hlen : offset + x.length + ((c :: rest).drop x.length).length =
          offset + (c :: rest).length := by
        have hle : x.length ≤ rest.length + 1 := hkept.inside
        rw [List.length_drop, List.length_cons]
        omega
      rw [hlen] at ih
      have htail := ih hkept.ahead hrest hends.2
      rw [List.cons_append, lexemes]
      rw [hkept.found, hkept.length, hdrop, Nat.add_right_comm offset d, htail]
      rfl

/-! ## Tokens -/

theorem tokensOf_append (xs : List (Nat × Found)) (d k : Nat) {t : Token} (ht : isText t = false) :
    tokensOf (xs.map (fun x => (x.1 + d, x.2.shift d)) ++ [(k, Found.token t)]) =
      (tokensOf xs).map (Token.shift d) ++ [t] := by
  induction xs with
  | nil => rfl
  | cons x xs ih =>
      obtain ⟨offset, x⟩ := x
      rw [List.map_cons, List.cons_append]
      change (x.shift d).before (offset + d) (tokensOf _) =
        (x.before offset (tokensOf xs)).map _ ++ _
      rw [ih]
      generalize tokensOf xs = ts
      cases x with
      | token u => rfl
      | text piece =>
          change consText (offset + d) piece (ts.map (Token.shift d) ++ [t]) =
            (consText offset piece ts).map (Token.shift d) ++ [t]
          cases ts with
          | nil =>
              cases t with
              | text o s => cases ht
              | _ => cases piece <;> rfl
          | cons u ts =>
              cases u with
              | text o s => rfl
              | _ => cases piece <;> rfl

theorem clean_of_mem_lexemes {xs : List (Nat × Found)} (h : ∀ t ∈ tokensOf xs, t.Clean) :
    ∀ x ∈ xs, x.2.Clean := by
  induction xs with
  | nil => simp
  | cons x xs ih =>
      obtain ⟨offset, x⟩ := x
      change ∀ t ∈ x.before offset (tokensOf xs), t.Clean at h
      cases x with
      | token u =>
          obtain ⟨hu, hus⟩ := List.forall_mem_cons.1 h
          exact List.forall_mem_cons.2 ⟨hu, ih hus⟩
      | text piece =>
          refine List.forall_mem_cons.2 ⟨trivial, ih fun t ht => ?_⟩
          change ∀ t ∈ consText offset piece (tokensOf xs), t.Clean at h
          unfold consText at h
          split at h
          · rename_i o more ts hts
            rw [hts] at ht
            rcases List.mem_cons.1 ht with rfl | ht
            · trivial
            · exact h t (List.mem_cons_of_mem _ ht)
          · split at h
            · exact h t ht
            · exact h t (List.mem_cons_of_mem _ ht)

/-- The tokens of a source without faults are its tokens in a longer one, up to the closing tag. -/
theorem tokensOf_lexemes_append {body : Bytes} (hclean : ∀ t ∈ lex body, t.Clean)
    (hends : endsIn none 0 body = none) (d : Nat) :
    tokensOf (lexemes none d (body ++ defEnd)) =
      (lex body).map (Token.shift d) ++ [Token.closing (body.length + d) "t:def" false] := by
  rw [lex_eq] at hclean ⊢
  have hahead : Follows d (0 + body.length) none none := rfl
  have happend := lexemes_append hahead (clean_of_mem_lexemes hclean) hends
  rw [Nat.zero_add, Nat.zero_add] at happend
  rw [happend]
  exact tokensOf_append _ d _ rfl

/-! ## The opening tag -/

variable {tag : Bytes}

theorem length_defStart (tag : Bytes) : (defStart tag).length = tag.length + 15 := by
  have hlen : (Bytes.ofString "<t:def name=\"").length = 13 ∧
      (Bytes.ofString "\">").length = 2 := by decide
  rw [defStart, List.length_append, List.length_append, hlen.1, hlen.2]
  omega

theorem isStart_or_isDigit (htag : Name.isTag tag = true) :
    ∀ c ∈ tag, Name.isStart c = true ∨ Bytes.isDigit c = true := by
  cases tag with
  | nil => simp
  | cons c tag =>
      simp only [Name.isTag, Name.isIdent, Bool.and_eq_true, List.all_eq_true,
        Bool.or_eq_true] at htag
      exact List.forall_mem_cons.2 ⟨.inl htag.1.1, htag.1.2⟩

theorem quoted?_tag (htag : Name.isTag tag = true) (rest : Bytes) :
    Scan.quoted? '"'.toUInt8 (tag ++ '"'.toUInt8 :: rest) = some tag.length := by
  have hident := isStart_or_isDigit htag
  clear htag
  induction tag with
  | nil => rw [List.nil_append, Scan.quoted?]; rfl
  | cons c tag ih =>
      obtain ⟨hc, htag⟩ := List.forall_mem_cons.1 hident
      have hother (d : UInt8) (hd : Name.isStart d = false) (hd' : Bytes.isDigit d = false) :
          (c == d) = false := by
        refine beq_eq_false_iff_ne.2 ?_
        rintro rfl
        simp [hd, hd'] at hc
      rw [List.cons_append, Scan.quoted?, hother _ (by decide) (by decide),
        hother '\x7b'.toUInt8 (by decide) (by decide), hother '"'.toUInt8 (by decide) (by decide),
        ih htag]
      rfl

private theorem written_quote (inner : Bytes) :
    written ('='.toUInt8 :: '"'.toUInt8 :: inner) =
      match Scan.quoted? '"'.toUInt8 inner with
      | none => .broken
      | some m => .quoted 1 (inner.take m) :=
  rfl

theorem written_tag (htag : Name.isTag tag = true) (rest : Bytes) :
    written ('='.toUInt8 :: '"'.toUInt8 :: (tag ++ '"'.toUInt8 :: rest)) = .quoted 1 tag := by
  rw [written_quote, quoted?_tag htag]
  simp

theorem lexAttrs_defStart (htag : Name.isTag tag = true) :
    lexAttrs 6 (" name=\"" ++ tag ++ "\">") =
      ⟨[⟨7, "name", .quoted 13 tag⟩], none, false, tag.length + 9⟩ := by
  have hstart : Bytes.ofString " name=\"" =
      ' '.toUInt8 :: 'n'.toUInt8 :: (Bytes.ofString "ame" ++ ['='.toUInt8, '"'.toUInt8]) := by
    decide
  have hend : Bytes.ofString "\">" = ['"'.toUInt8, '>'.toUInt8] := by decide
  rw [hstart, hend]
  simp only [List.cons_append, List.append_assoc, List.nil_append]
  generalize hafter : '='.toUInt8 :: '"'.toUInt8 :: (tag ++ ['"'.toUInt8, '>'.toUInt8]) = after
  have hname : Name.leading ('n'.toUInt8 :: (Bytes.ofString "ame" ++ after)) = "name" := by
    subst hafter
    rfl
  have hwritten : written after = .quoted 1 tag := by
    rw [← hafter]
    exact written_tag htag _
  have hread := (lexAttrs_name (o := 6)
    (s := ' '.toUInt8 :: 'n'.toUInt8 :: (Bytes.ofString "ame" ++ after)) rfl (by decide)).2
  rw [hname] at hread
  change written after ≠ _ → _ = (lexAttrs (6 + 1 + 4 + (written after).length)
    (after.drop (written after).length)).consAttr ⟨7, "name", (written after).value 11⟩
      (1 + 4 + (written after).length) at hread
  have hdrop : after.drop (1 + tag.length + 2) = ['>'.toUInt8] := by
    rw [← hafter, show 1 + tag.length + 2 = tag.length + 1 + 1 + 1 by omega]
    rw [List.drop_succ_cons, List.drop_succ_cons, List.drop_append,
      List.drop_eq_nil_of_le (by omega)]
    simp
  rw [hwritten, Written.length, hdrop, lexAttrs_close (s := ['>'.toUInt8]) rfl] at hread
  rw [hread (by rintro ⟨⟩), TagTail.consAttr, Written.value]
  congr 1
  change 0 + 1 + (1 + 4 + (1 + tag.length + 2)) = tag.length + 9
  omega

theorem lex_defStart_append (htag : Name.isTag tag = true) (s : Bytes) :
    lex (defStart tag ++ s) =
      .opening 0 "t:def" [⟨7, "name", .quoted 13 tag⟩] none false ::
        tokensOf (lexemes none (tag.length + 15) s) := by
  have hstart : Bytes.ofString "<t:def name=\"" =
      '<'.toUInt8 :: (Bytes.ofString "t:def" ++ Bytes.ofString " name=\"") := by decide
  have htail := lexAttrs_defStart htag
  generalize hattrs : Bytes.ofString " name=\"" ++ tag ++ Bytes.ofString "\">" = attrs at htail
  have hsource : Bytes.ofString "<t:def name=\"" ++ tag ++ Bytes.ofString "\">" ++ s =
      '<'.toUInt8 :: (Bytes.ofString "t:def" ++ (attrs ++ s)) := by
    rw [hstart, ← hattrs]
    simp only [List.cons_append, List.append_assoc]
  have hwhole := lexAttrs_append (o := 6) (s := attrs) (by rw [htail]) 0 s
  rw [htail] at hwhole
  have hlength : attrs.length = tag.length + 9 := by
    have hlen : (Bytes.ofString " name=\"").length = 7 ∧ (Bytes.ofString "\">").length = 2 := by
      decide
    rw [← hattrs, List.length_append, List.length_append, hlen.1, hlen.2]
    omega
  have hname : Name.leading (Bytes.ofString "t:def" ++ (attrs ++ s)) = "t:def" := by
    subst hattrs
    rfl
  have hmark : lexMark none 0 '<'.toUInt8 (Bytes.ofString "t:def" ++ (attrs ++ s)) =
      ⟨.token (.opening 0 "t:def" [⟨7, "name", .quoted 13 tag⟩] none false), tag.length + 15,
        none, none⟩ := by
    have hno (m : Bytes) (hm : m = "<!--" ∨ m = "</") : Bytes.startsWith
        ('<'.toUInt8 :: (Bytes.ofString "t:def" ++ (attrs ++ s))) m = false := by
      rcases hm with rfl | rfl <;> rfl
    rw [lexMark, hname, hno _ (.inl rfl), hno _ (.inr rfl)]
    change Lexeme.mk (.token (.opening 0 "t:def" (lexAttrs 6 (attrs ++ s)).attrs
      (lexAttrs 6 (attrs ++ s)).problem (lexAttrs 6 (attrs ++ s)).selfClosing))
        (6 + (lexAttrs 6 (attrs ++ s)).length) none none = _
    rw [hwhole]
    have hsum : 6 + (tag.length + 9) = tag.length + 15 := by omega
    simp only [TagTail.shift, hsum]
    rfl
  rw [defStart, hsource, lex_eq, lexemes, lexeme]
  change tokensOf (((0 : Nat), (lexMark none 0 _ _).found) :: lexemes (lexMark none 0 _ _).ahead
    (0 + (lexMark none 0 _ _).length) (List.drop (lexMark none 0 _ _).length _)) = _
  rw [hmark]
  have hdrop :
      ('<'.toUInt8 :: (Bytes.ofString "t:def" ++ (attrs ++ s))).drop (tag.length + 15) = s := by
    have hlen : (Bytes.ofString "t:def").length = 5 := by decide
    rw [← List.append_assoc, ← List.cons_append, List.drop_left']
    rw [List.length_cons, List.length_append, hlength, hlen]
    omega
  dsimp only
  rw [hdrop, Nat.zero_add]
  rfl

theorem lex_enclosed (htag : Name.isTag tag = true) {body : Bytes}
    (hclean : ∀ t ∈ lex body, t.Clean) (hends : endsIn none 0 body = none) :
    lex (enclosed tag body) =
      .opening 0 "t:def" [⟨7, "name", .quoted 13 tag⟩] none false ::
        ((lex body).map (Token.shift (defStart tag).length) ++
          [Token.closing (body.length + (defStart tag).length) "t:def" false]) := by
  rw [enclosed, List.append_assoc, lex_defStart_append htag, tokensOf_lexemes_append hclean hends,
    length_defStart]

end Template

end TagLoom

import TagLoom.Proofs.Template.Layout

/-!
# The course of tokens

The tokens of a source cover it: each starts where the one before it ends, and what it stands for is
read there.  Two texts never follow each other, and every other token ends with an ASCII character.
A text therefore starts with a new character, whatever bytes the source is made of, and the
positions of the tokens are in the order of their offsets.
-/

namespace TagLoom

/-! ## Whole characters -/

namespace Bytes

/-- A number of bytes of a text are all of it, or end with an ASCII character. -/
def EndsAscii (s : Bytes) (n : Nat) : Prop :=
  n < s.length → ∃ k c, n = k + 1 ∧ s[k]? = some c ∧ c < 0x80

namespace EndsAscii

variable {s : Bytes} {m n : Nat}

theorem of_le (h : s.length ≤ n) : EndsAscii s n := fun hlt => absurd h (Nat.not_le.2 hlt)

theorem of_get {c : UInt8} (h : s[n]? = some c) (hc : c < 0x80) : EndsAscii s (n + 1) :=
  fun _ => ⟨n, c, rfl, h, hc⟩

theorem of_drop {t : Bytes} (ht : s.drop m = t) (h : EndsAscii t n) : EndsAscii s (m + n) := by
  subst ht
  intro hlt
  obtain ⟨k, c, rfl, hget, hc⟩ := h (by rw [List.length_drop]; omega)
  exact ⟨m + k, c, rfl, by rw [← List.getElem?_drop, hget], hc⟩

end EndsAscii
end Bytes

theorem Utf8.count_append_of_getLast {s : Bytes} (h : ∀ c, s.getLast? = some c → c < 0x80)
    (w : Bytes) : count (s ++ w) = count s + count w := by
  rcases List.eq_nil_or_concat s with rfl | ⟨u, c, rfl⟩
  · simp [count]
  · have hc : c < 0x80 := h c (by simp)
    have hstart := isContinuation_ascii hc
    have hboth := scan_append u w hstart
    have hfront := scan_append u [] hstart
    rw [scan_cons, decode_ascii _ hc] at hboth hfront
    rw [List.concat_eq_append, List.append_assoc, List.singleton_append, count, count,
      hboth, hfront]
    simp only [count, List.length_append, List.length_cons, Nat.sub_self, List.drop_zero,
      scan_nil, List.length_nil]
    omega

namespace Pos

open Bytes (EndsAscii)

variable {source : Bytes} {o o' : Nat}

/-- A new character starts at an offset. -/
def Fresh (source : Bytes) (o : Nat) : Prop := o = 0 ∨ EndsAscii source o

theorem Fresh.getLast (h : Fresh source o) (hlt : o < source.length) :
    ∀ c, (source.take o).getLast? = some c → c < 0x80 := by
  intro c hlast
  rcases h with rfl | h
  · simp at hlast
  · obtain ⟨k, d, rfl, hget, hd⟩ := h hlt
    rw [List.take_add_one, hget] at hlast
    simp only [Option.toList_some, List.getLast?_append, List.getLast?_singleton,
      Option.some_or, Option.some.injEq] at hlast
    exact hlast ▸ hd

theorem Fresh.before (h : Fresh source o) (hlt : o < source.length) (ho : o < o') :
    (ofOffset source o).before (ofOffset source o') = true := by
  obtain ⟨k, rfl⟩ := Nat.exists_eq_add_of_lt ho
  have hlast := h.getLast hlt
  have hne : (source.drop o).take (k + 1) ≠ [] := by
    rw [ne_eq, List.take_eq_nil_iff, List.drop_eq_nil_iff]
    omega
  rw [ofOffset, ofOffset, Nat.add_assoc, List.take_add]
  generalize (source.drop o).take (k + 1) = w at hne
  generalize source.take o = u at hlast
  simp only [before_iff, List.count_append]
  by_cases hline : '\n'.toUInt8 ∈ w
  · have hpos := List.count_pos_iff.2 hline
    exact .inl (by omega)
  · have hnone := List.count_eq_zero.2 hline
    have hlast' : ∀ c, (lastLine u).getLast? = some c → c < 0x80 := by
      intro c hc
      obtain ⟨v, hv⟩ : lastLine u <:+ u := by
        rw [← List.reverse_prefix, lastLine, List.reverse_reverse]
        exact List.takeWhile_prefix _
      refine hlast c ?_
      rw [← hv, List.getLast?_append, hc]
      rfl
    have hsome : 0 < Utf8.count w := by
      cases w with
      | nil => exact absurd rfl hne
      | cons c w =>
          rw [Utf8.count, Utf8.scan_cons]
          exact Nat.succ_pos _
    rw [lastLine_append_of_notMem hline, Utf8.count_append_of_getLast hlast']
    exact .inr ⟨by omega, by omega⟩

theorem ofOffset_zero (source : Bytes) : ofOffset source 0 = start := by
  simp [ofOffset, lastLine, Utf8.count, start]

theorem ofOffset_succ {c : UInt8} (hc : source[o]? = some c) (hascii : c < 0x80) :
    ofOffset source (o + 1) = if c == '\n'.toUInt8 then ⟨(ofOffset source o).line + 1, 1⟩
      else ⟨(ofOffset source o).line, (ofOffset source o).column + 1⟩ := by
  have hsplit := Utf8.scan_append (lastLine (source.take o)) [] (Utf8.isContinuation_ascii hascii)
  rw [Utf8.scan_cons, Utf8.decode_ascii _ hascii] at hsplit
  rw [ofOffset, ofOffset, List.take_add_one, hc, Option.toList_some, List.count_append]
  split
  · rename_i hline
    obtain rfl : c = '\n'.toUInt8 := eq_of_beq hline
    have hlast : lastLine (source.take o ++ ['\n'.toUInt8]) = [] := by simp [lastLine]
    rw [hlast]
    simp [Utf8.count]
  · rename_i hline
    have hnot : '\n'.toUInt8 ∉ [c] := fun hmem => hline (by simp [List.mem_singleton.1 hmem])
    rw [List.count_eq_zero.2 hnot, lastLine_append_of_notMem hnot, Utf8.count, hsplit]
    simp [Utf8.count]

end Pos

theorem Name.lt_of_isSpace {c : UInt8} (h : Name.isSpace c = true) : c < 0x80 := by
  simp only [Name.isSpace, Bool.or_eq_true, beq_iff_eq] at h
  rcases h with (((rfl | rfl) | rfl) | rfl) | rfl <;> decide

namespace Scan

open Bytes (EndsAscii)

theorem skipText_stop {quote : UInt8} {s : Bytes} (h : (skipText quote true s).2 = false) :
    s.length ≤ (skipText quote true s).1 ∨
      s[(skipText quote true s).1]? = some '\n'.toUInt8 := by
  fun_induction skipText quote true s with
  | case1 => exact .inl (Nat.le_refl _)
  | case2 => exact .inl (Nat.le_refl _)
  | case3 c hc d rest n ok hrest ih =>
      rw [hrest] at ih
      exact (ih h).imp (fun hle => by simp only [List.length_cons]; omega) id
  | case4 => cases h
  | case5 c rest hc hquote hline =>
      rw [Bool.and_true] at hline
      exact .inr (by rw [eq_of_beq hline]; rfl)
  | case6 c rest hc hquote hline n ok hrest ih =>
      rw [hrest] at ih
      exact (ih h).imp Nat.succ_le_succ id

theorem closeBraces_stop {depth : Nat} {s : Bytes} (h : (closeBraces true depth s).2 = false) :
    s.length ≤ (closeBraces true depth s).1 ∨
      s[(closeBraces true depth s).1]? = some '\n'.toUInt8 := by
  fun_induction closeBraces true depth s with
  | case1 => exact .inl (Nat.le_refl _)
  | case2 depth c rest hc n ok hrest ih =>
      rw [hrest] at ih
      exact (ih h).imp Nat.succ_le_succ id
  | case3 => cases h
  | case4 depth c rest hc hclose hdepth n ok hrest ih =>
      rw [hrest] at ih
      exact (ih h).imp Nat.succ_le_succ id
  | case5 depth c rest hc hclose hline =>
      rw [Bool.and_true] at hline
      exact .inr (by rw [eq_of_beq hline]; rfl)
  | case6 depth c rest hc hclose hline hquote n m ok hrest htext ih =>
      rw [hrest] at ih
      refine (ih h).imp (fun hle => ?_) fun hget => ?_
      · rw [List.length_drop] at hle
        simp only [List.length_cons]
        omega
      · rw [List.getElem?_drop] at hget
        dsimp only
        rw [List.getElem?_cons_succ, ← hget]
        congr 1
        omega
  | case7 depth c rest hc hclose hline hquote n ok htext hok =>
      have hstop := skipText_stop (s := rest) (by rw [htext]; simpa using hok)
      rw [htext] at hstop
      exact hstop.imp Nat.succ_le_succ id
  | case8 depth c rest hc hclose hline hquote n ok hrest ih =>
      rw [hrest] at ih
      exact (ih h).imp Nat.succ_le_succ id

theorem endsAscii_tagEnd (s : Bytes) : EndsAscii s (tagEnd s) := by
  fun_induction tagEnd s with
  | case1 => exact .of_le (Nat.le_refl _)
  | case2 c rest hc => exact .of_get (List.getElem?_cons_zero) (by rw [eq_of_beq hc]; decide)
  | case3 => exact .of_le (Nat.le_refl _)
  | case4 c rest hc hquote j hfind ih =>
      rw [Nat.add_assoc, Nat.add_comm]
      exact .of_drop rfl ih
  | case5 => exact .of_le (Nat.le_refl _)
  | case6 c rest hc hquote hbrace j hclose ih =>
      rw [Nat.add_assoc, Nat.add_comm]
      exact .of_drop rfl ih
  | case7 c rest hc hquote hbrace ih =>
      rw [Nat.add_comm]
      exact .of_drop rfl ih

end Scan

namespace Template

open Bytes (EndsAscii)

variable {source s rest value : Bytes} {c e : UInt8} {o n : Nat}

theorem TagTail.endsAscii_skip {m : Nat} (hs : s.drop m = rest) (problem : Nat × TagProblem) :
    EndsAscii s (TagTail.skip problem m rest).length :=
  .of_drop hs (Scan.endsAscii_tagEnd rest)

theorem TagTail.endsAscii_resync {m : Nat} (hs : s.drop m = rest) (problem : Nat × TagProblem) :
    EndsAscii s (TagTail.resync problem m rest).length := by
  rw [TagTail.resync]
  split
  · refine .of_le ?_
    dsimp only
    rw [← hs, List.length_drop]
    omega
  · rename_i i hi
    obtain ⟨hlt, hmark, -⟩ := List.findIdx?_eq_some_iff_getElem.1 hi
    have hget : rest[i + 1]? = some (rest.drop 1)[i] := by
      rw [Nat.add_comm, ← List.getElem?_drop]
      exact List.getElem?_eq_getElem hlt
    refine .of_drop (n := i + 2) hs (.of_get hget ?_)
    rw [Bool.or_eq_true, beq_iff_eq, beq_iff_eq] at hmark
    rcases hmark with hmark | hmark <;> rw [hmark] <;> decide

theorem TagTail.endsAscii_consAttr {m : Nat} {tail : TagTail} (hs : s.drop m = rest)
    (h : EndsAscii rest tail.length) (a : Attr) : EndsAscii s (tail.consAttr a m).length := by
  rw [TagTail.consAttr, Nat.add_comm]
  exact .of_drop hs h

/-! ## Places in a tag -/

theorem drop_of_dropWhile (hs : s.dropWhile Name.isSpace = c :: rest) (j : Nat) :
    s.drop ((s.takeWhile Name.isSpace).length + (j + 1)) = rest.drop j := by
  rw [← List.drop_drop, drop_takeWhile, hs, List.drop_succ_cons]

theorem drop_after_name (hs : s.dropWhile Name.isSpace = c :: rest) (hn : 0 < n) :
    s.drop ((s.takeWhile Name.isSpace).length + n) = rest.drop (n - 1) := by
  rw [← drop_of_dropWhile hs, Nat.sub_add_cancel hn]

/-- Behind the name of an attribute, an equals sign and the blanks around it stands the value. -/
theorem drop_before_value (hs : s.dropWhile Name.isSpace = c :: rest) (hn : 0 < n)
    (hafter : (rest.drop (n - 1)).dropWhile Name.isSpace = e :: value) :
    s.drop ((s.takeWhile Name.isSpace).length + (n + ((rest.drop (n - 1)).takeWhile
      Name.isSpace).length + 1 + (value.takeWhile Name.isSpace).length)) =
        value.dropWhile Name.isSpace := by
  rw [← drop_takeWhile Name.isSpace value, ← drop_of_dropWhile hafter, List.drop_drop]
  generalize ((rest.drop (n - 1)).takeWhile Name.isSpace).length = space
  rw [← drop_of_dropWhile hs]
  congr 1
  omega

/-- An opening tag ends with its mark, at the end of a line, or with the source. -/
theorem endsAscii_lexAttrs (o : Nat) (s : Bytes) : EndsAscii s (lexAttrs o s).length := by
  fun_induction lexAttrs o s with
  | case1 _ s gap hs => exact .of_le (List.drop_eq_nil_iff.1 ((drop_takeWhile _ s).trans hs))
  | case2 _ s gap c rest hs hgt =>
      exact .of_drop ((drop_takeWhile _ s).trans hs)
        (.of_get List.getElem?_cons_zero (by rw [eq_of_beq hgt]; decide))
  | case3 _ s gap c rest hs hgt hslash =>
      obtain ⟨t, ht⟩ := List.isPrefixOf_iff_prefix.1 hslash
      rw [slashGt_eq] at ht
      cases ht
      exact .of_drop ((drop_takeWhile _ s).trans hs)
        (.of_get (c := '>'.toUInt8) rfl (by decide))
  | case4 _ s gap c rest hs =>
      exact TagTail.endsAscii_skip ((drop_takeWhile _ s).trans hs) _
  | case5 _ s gap c rest hs _ _ start name hname n after _ ih
  | case6 _ s gap c rest hs _ _ start name hname n after _ _ _ _ ih =>
      have hn : 0 < n := List.length_pos_iff.2 (by simpa using hname)
      exact TagTail.endsAscii_consAttr (drop_after_name hs hn) ih _
  | case7 _ s gap c rest hs _ _ start name hname n after space _ _ hafter _ _ k value _ =>
      have hn : 0 < n := List.length_pos_iff.2 (by simpa using hname)
      exact TagTail.endsAscii_skip (drop_before_value hs hn hafter) _
  | case8 _ s gap c rest hs _ _ start name hname n after space _ _ hafter _ _ k value
  | case10 _ s gap c rest hs _ _ start name hname n after space _ _ hafter _ _ k value =>
      have hn : 0 < n := List.length_pos_iff.2 (by simpa using hname)
      exact TagTail.endsAscii_resync (drop_before_value hs hn hafter) _
  | case12 _ s gap c rest hs _ _ start name hname n after space _ _ hafter _ _ k value =>
      have hn : 0 < n := List.length_pos_iff.2 (by simpa using hname)
      exact TagTail.endsAscii_skip (drop_before_value hs hn hafter) _
  | case9 _ s gap c rest hs _ _ _ _ _ _ _ _ _ _ _ _ _ k _ _ _ _ _ m _ ih =>
      refine TagTail.endsAscii_consAttr ?_ ih _
      rw [← drop_of_dropWhile hs]
      congr 1
      omega
  | case11 _ s gap c rest hs _ _ _ _ _ _ _ _ _ _ _ _ _ k _ _ _ _ _ _ m _ ih =>
      refine TagTail.endsAscii_consAttr ?_ ih _
      rw [← drop_of_dropWhile hs]
      congr 1
      omega

/-- The name of an attribute, and its value if that is quoted, stand at their offsets. -/
structure Attr.Stands (source : Bytes) (a : Attr) : Prop where
  ne_nil : a.name ≠ []
  name : a.name <+: source.drop a.offset
  value : ∀ base v, a.value = .quoted base v → v <+: source.drop base

theorem drop_add {m : Nat} (h : source.drop o = s) (hs : s.drop m = rest) :
    source.drop (o + m) = rest := by
  rw [← List.drop_drop, h, hs]

theorem stands_attr (h : source.drop o = s) (hs : s.dropWhile Name.isSpace = c :: rest)
    (hname : Name.leading (c :: rest) ≠ []) {value : AttrValue}
    (hvalue : ∀ base v, value = .quoted base v → v <+: source.drop base) :
    Attr.Stands source
      ⟨o + (s.takeWhile Name.isSpace).length, Name.leading (c :: rest), value⟩ := by
  refine ⟨hname, ?_, hvalue⟩
  have hplace := drop_add h ((drop_takeWhile Name.isSpace s).trans hs)
  exact hplace ▸ leading_starts (c :: rest)

theorem stands_lexAttrs (h : source.drop o = s) :
    ∀ a ∈ (lexAttrs o s).attrs, a.Stands source := by
  fun_induction lexAttrs o s with
  | case1 | case2 | case3 | case4 | case7 | case12 => exact nofun
  | case8 | case10 =>
      rw [(TagTail.resync_fields _ _ _).2]
      exact nofun
  | case5 _ s gap c rest hs _ _ start name hname n after _ ih
  | case6 _ s gap c rest hs _ _ start name hname n after _ _ _ _ ih =>
      have hn : 0 < n := List.length_pos_iff.2 (by simpa using hname)
      refine List.forall_mem_cons.2 ⟨stands_attr h hs (by simpa using hname) nofun, ih ?_⟩
      rw [Nat.add_assoc]
      exact drop_add h (drop_after_name hs hn)
  | case9 _ s gap c rest hs _ _ start name hname n after space _ _ hafter _ _ k value q inner
      hvalue _ m _ ih =>
      have hn : 0 < n := List.length_pos_iff.2 (by simpa using hname)
      have hplace := (drop_before_value hs hn hafter).trans hvalue
      refine List.forall_mem_cons.2 ⟨stands_attr h hs (by simpa using hname) ?_, ih ?_⟩
      · intro base v hv
        cases hv
        have hinner := drop_add h (drop_add hplace List.drop_one)
        have hbase : source.drop (start + k + 1) = inner := by
          change source.drop (start + k + 1) = (q :: inner).tail
          rw [← hinner]
          congr 1
          simp only [start, gap, k, space, after]
          omega
        exact hbase ▸ List.take_prefix m inner
      · have hnext := drop_add h (drop_of_dropWhile hs (k + m + 1))
        rw [← hnext]
        congr 1
        simp only [start, gap]
        omega
  | case11 _ s gap c rest hs _ _ start name hname n after space _ _ hafter _ _ k value q inner
      hvalue _ _ m _ ih =>
      refine List.forall_mem_cons.2 ⟨stands_attr h hs (by simpa using hname) nofun, ih ?_⟩
      have hnext := drop_add h (drop_of_dropWhile hs (k + m))
      rw [← hnext]
      congr 1
      simp only [start, gap]
      omega

/-! ## Texts -/

/-- A source begins with a text: it reads the blanks the text starts with and the byte behind them.
An escaped brace is read as a brace. -/
inductive Begins : Bytes → Bytes → Prop where
  | nil {u : Bytes} : Begins u []
  | blank {c : UInt8} {u s : Bytes} (hc : Name.isSpace c = true) (h : Begins u s) :
      Begins (c :: u) (c :: s)
  | byte {c : UInt8} {u s : Bytes} (hc : Name.isSpace c = false) : Begins (c :: u) (c :: s)
  | brace {u s : Bytes} : Begins ("\\\x7b" ++ u) ('\x7b'.toUInt8 :: s)

/-- A piece of text is what it was read from, or an escaped brace. -/
inductive PieceOf : Bytes → Bytes → Prop where
  | copy {s : Bytes} : PieceOf s s
  | brace : PieceOf "\\\x7b" "\x7b"

theorem Begins.append_left {u : Bytes} (h : Begins u s) (z : Bytes) : Begins (u ++ z) s := by
  induction h with
  | nil => exact .nil
  | blank hc _ ih => exact .blank hc ih
  | byte hc => exact .byte hc
  | brace =>
      rw [List.append_assoc]
      exact .brace

theorem Begins.length_pos {u : Bytes} (h : Begins u s) (hs : s ≠ []) : 0 < u.length := by
  cases h with
  | nil => exact absurd rfl hs
  | _ => exact Nat.succ_pos _

theorem PieceOf.begins {span piece u : Bytes} (h : PieceOf span piece) (hs : Begins u s) :
    Begins (span ++ u) (piece ++ s) := by
  cases h with
  | brace => exact .brace
  | copy =>
      induction span with
      | nil => exact hs
      | cons c span ih =>
          cases hc : Name.isSpace c with
          | true => exact .blank hc ih
          | false => exact .byte hc

theorem Begins.trim {u : Bytes} (h : Begins u s) (hblank : Name.isBlank s = false) :
    ∃ v, v ≠ [] ∧ u = s.takeWhile Name.isSpace ++ v ∧ Begins v (s.dropWhile Name.isSpace) := by
  induction h with
  | nil => cases hblank
  | @blank c u s hc h ih =>
      obtain ⟨v, hv, rfl, hbegins⟩ := ih (by simpa [Name.isBlank, hc] using hblank)
      refine ⟨v, hv, ?_, ?_⟩
      · rw [List.takeWhile_cons_of_pos hc, List.cons_append]
      · rwa [List.dropWhile_cons_of_pos hc]
  | @byte c u s hc =>
      have hc' : ¬ Name.isSpace c = true := by simp [hc]
      refine ⟨c :: u, List.cons_ne_nil _ _, ?_, ?_⟩
      · rw [List.takeWhile_cons_of_neg hc', List.nil_append]
      · rw [List.dropWhile_cons_of_neg hc']
        exact .byte hc
  | @brace u s =>
      have hc : ¬ Name.isSpace '\x7b'.toUInt8 = true := by decide
      refine ⟨"\\\x7b" ++ u, List.cons_ne_nil _ _, ?_, ?_⟩
      · rw [List.takeWhile_cons_of_neg hc, List.nil_append]
      · rw [List.dropWhile_cons_of_neg hc]
        exact .brace

theorem skipBlanks_ofOffset {w : Bytes} (hw : ∀ c ∈ w, Name.isSpace c = true)
    (h : w <+: source.drop o) :
    Body.skipBlanks (Pos.ofOffset source o) w = Pos.ofOffset source (o + w.length) := by
  induction w generalizing o with
  | nil => rfl
  | cons c w ih =>
      obtain ⟨hc, hw⟩ := List.forall_mem_cons.1 hw
      obtain ⟨z, hz⟩ := h
      have hget : source[o]? = some c := by
        rw [← Nat.add_zero o, ← List.getElem?_drop, ← hz]
        rfl
      have hdrop : source.drop (o + 1) = w ++ z := drop_add hz.symm rfl
      have hstep := Pos.ofOffset_succ hget (Name.lt_of_isSpace hc)
      rw [List.length_cons, Nat.add_comm w.length, ← Nat.add_assoc,
        ← ih hw (hdrop ▸ List.prefix_append w z), hstep]
      rfl

/-! ## Lexemes -/

namespace Token

def offset : Token → Nat
  | .text o _ | .interpolation o _ | .opening o _ _ _ _ | .closing o _ _ => o

def Stands (source : Bytes) : Token → Prop
  | .text o s => s ≠ [] ∧ Begins (source.drop o) s
  | .interpolation o _ => Bytes.ofString "\x7b" <+: source.drop o
  | .opening o name attrs _ _ =>
      Bytes.ofString "<" ++ name <+: source.drop o ∧ ∀ a ∈ attrs, a.Stands source
  | .closing o name _ => Bytes.ofString "</" ++ name <+: source.drop o

end Token

def Found.Stands (source : Bytes) (o n : Nat) : Found → Prop
  | .text piece => PieceOf ((source.drop o).take n) piece
  | .token t => t.offset = o ∧ isText t = false ∧ t.Stands source ∧ EndsAscii source (o + n)

theorem stands_lexMark (h : source.drop o = c :: rest) (ahead : Option RawAhead) :
    (lexMark ahead o c rest).found.Stands source o (lexMark ahead o c rest).length := by
  have hcopy (n : Nat) : Found.Stands source o n (.text ((c :: rest).take n)) := by
    rw [Found.Stands, h]
    exact .copy
  fun_cases lexMark ahead o c rest with
  | case1 hescape =>
      rw [Bool.and_eq_true, beq_iff_eq, beq_iff_eq] at hescape
      obtain ⟨rfl, hbrace⟩ := hescape
      obtain ⟨rest, rfl⟩ := List.head?_eq_some_iff.1 hbrace
      change PieceOf ((source.drop o).take 2) _
      rw [h]
      exact .brace
  | case2 _ hc n hn =>
      have hok : (Scan.closeBraces true 1 rest).2 = true := by rw [hn]
      have hclose := Scan.head?_drop_closeBraces hok
      rw [hn, List.head?_drop] at hclose
      refine ⟨rfl, rfl, ?_, .of_drop h (.of_get (n := n + 1) hclose (by decide))⟩
      change _ <+: source.drop o
      rw [h, eq_of_beq hc]
      exact List.prefix_append _ rest
  | case3 _ hc n hn =>
      have hstop := Scan.closeBraces_stop (s := rest) (by rw [hn])
      rw [hn] at hstop
      refine ⟨rfl, rfl, ?_, .of_drop h ?_⟩
      · change _ <+: source.drop o
        rw [h, eq_of_beq hc]
        exact List.prefix_append _ rest
      · rcases hstop with hle | hline
        · exact .of_le (Nat.le_succ_of_le (Nat.succ_le_succ hle))
        · exact .of_get (n := n + 1) hline (by decide)
  | case4 => exact hcopy _
  | case5 =>
      have hall := hcopy (c :: rest).length
      rwa [List.take_length] at hall
  | case6 s _ _ _ hclose name hactive after gap closed n =>
      obtain ⟨t, ht⟩ := List.isPrefixOf_iff_prefix.1 hclose
      obtain ⟨rfl, rfl⟩ : '<'.toUInt8 = c ∧ '/'.toUInt8 :: t = rest := List.cons.inj ht
      have hafter : (('<'.toUInt8 :: '/'.toUInt8 :: t).drop (2 + name.length + gap)) =
          after.drop gap := by
        rw [← List.drop_drop, Nat.add_comm 2, List.drop_succ_cons, List.drop_succ_cons]
        rfl
      refine ⟨rfl, rfl, ?_, .of_drop h (.of_drop hafter ?_)⟩
      · change _ <+: source.drop o
        rw [h]
        exact (List.prefix_append_right_inj _).2 (leading_starts t)
      · cases hclosed : closed with
        | true =>
            refine .of_get (n := 0) (c := '>'.toUInt8) ?_ (by decide)
            rw [← List.head?_eq_getElem?]
            exact eq_of_beq hclosed
        | false => exact Scan.endsAscii_tagEnd _
  | case7 s _ _ _ hclose =>
      obtain ⟨t, ht⟩ := List.isPrefixOf_iff_prefix.1 hclose
      obtain ⟨rfl, -⟩ : '<'.toUInt8 = c ∧ '/'.toUInt8 :: t = rest := List.cons.inj ht
      exact hcopy 1
  | case8 s _ _ _ _ hlt name n hactive tail =>
      obtain rfl : c = '<'.toUInt8 := eq_of_beq hlt
      refine ⟨rfl, rfl, ⟨?_, stands_lexAttrs (drop_add h rfl)⟩,
        .of_drop h (.of_drop rfl (endsAscii_lexAttrs _ _))⟩
      rw [h]
      exact (List.prefix_append_right_inj (Bytes.ofString "<")).2 (leading_starts rest)
  | case9 => exact hcopy _
  | case10 => exact hcopy 1

theorem stands_lexeme (h : source.drop o = c :: rest) (ahead : Option RawAhead) :
    (lexeme ahead o c rest).found.Stands source o (lexeme ahead o c rest).length := by
  rw [lexeme]
  split
  · exact stands_lexMark h ahead
  · dsimp only
    split
    · exact stands_lexMark h none
    · rw [Found.Stands, h]
      exact .copy

/-! ## Tokens -/

/-- The tokens of a source from an offset on: each starts where the one before it ends, and what it
stands for is read there. -/
inductive Course (source : Bytes) : Nat → List Token → Prop where
  | nil {o : Nat} : Course source o []
  | text {o n : Nat} {s : Bytes} {ts : List Token} (hne : s ≠ [])
      (hbegins : Begins ((source.drop o).take n) s) (hnext : ∀ t ∈ ts.head?, isText t = false)
      (hrest : Course source (o + n) ts) : Course source o (.text o s :: ts)
  | mark {o n : Nat} {t : Token} {ts : List Token} (ho : t.offset = o) (hmark : isText t = false)
      (hstands : t.Stands source) (hn : 0 < n) (hends : EndsAscii source (o + n))
      (hrest : Course source (o + n) ts) : Course source o (t :: ts)

theorem Course.consText {ts : List Token} {piece : Bytes} (hne : piece ≠ [])
    (hpiece : PieceOf ((source.drop o).take n) piece) (hts : Course source (o + n) ts) :
    Course source o (consText o piece ts) := by
  unfold Template.consText
  split
  · rename_i o' more ts
    cases hts with
    | mark _ hmark => cases hmark
    | @text _ m _ _ _ hbegins hnext hrest =>
        rw [Nat.add_assoc] at hrest
        refine .text (fun hnil => hne (List.append_eq_nil_iff.1 hnil).1) ?_ hnext hrest
        rw [List.take_add, List.drop_drop]
        exact hpiece.begins hbegins
  · rename_i hother
    rw [if_neg (by simpa using hne)]
    refine .text (n := n) hne ?_ ?_ hts
    · have hbegins := hpiece.begins (u := []) Begins.nil
      rwa [List.append_nil, List.append_nil] at hbegins
    · intro t ht
      obtain ⟨ts, rfl⟩ := List.head?_eq_some_iff.1 ht
      cases t with
      | text o' s => exact absurd rfl (hother o' s ts)
      | _ => rfl

theorem course_lexemes (ahead : Option RawAhead) (h : source.drop o = s) :
    Course source o (tokensOf (lexemes ahead o s)) := by
  fun_induction lexemes ahead o s with
  | case1 => exact .nil
  | case2 ahead o c rest x ih =>
      have hrest := ih (by rw [← List.drop_drop, h])
      have hstands := stands_lexeme h ahead
      have hsound := sound_lexeme ahead o c rest
      have hpos := length_lexeme_pos ahead o c rest
      change Course source o (x.found.before o _)
      cases hfound : x.found with
      | text piece =>
          rw [hfound] at hstands hsound
          exact hrest.consText hsound hstands
      | token t =>
          rw [hfound] at hstands
          obtain ⟨ho, hmark, hread, hends⟩ := hstands
          exact .mark ho hmark hread hpos hends hrest

theorem course_lex (source : Bytes) : Course source 0 (lex source) := by
  rw [lex_eq]
  exact course_lexemes none rfl

theorem Course.stands {ts : List Token} (h : Course source o ts) : ∀ t ∈ ts, t.Stands source := by
  induction h with
  | nil => exact nofun
  | @text o n s ts hne hbegins _ _ ih =>
      refine List.forall_mem_cons.2 ⟨⟨hne, ?_⟩, ih⟩
      have hall := hbegins.append_left ((source.drop o).drop n)
      rwa [List.take_append_drop] at hall
  | mark _ _ hstands _ _ _ ih => exact List.forall_mem_cons.2 ⟨hstands, ih⟩

end Template

end TagLoom

import TagLoom.Proofs.Template.Ends
import TagLoom.Template.Node

/-!
# Positions by a table of lines

The offsets at which the lines of a source start are written down once, and the line of an offset is
found by bisection.  Starts and bytes are looked up in the table and the source, a look-up beside
them having no result.  Every offset has a position so, also one past the end: the position it has by
the text in front of it.
-/

namespace TagLoom

namespace Pos

variable {m o b : Nat}

/-! ## The table -/

def behindNewlines (o : Nat) : Bytes → List Nat
  | [] => []
  | c :: rest =>
      if c == '\n'.toUInt8 then (o + 1) :: behindNewlines (o + 1) rest
      else behindNewlines (o + 1) rest

structure LineTable where
  source : Bytes
  starts : List Nat

def LineTable.ofSource (source : Bytes) : LineTable := ⟨source, 0 :: behindNewlines 0 source⟩

/-- The least number from one on up to another for which a test holds that fails below some number
and holds from it on. -/
def bisect? (test : Nat → Option Bool) (lo hi : Nat) : Option Nat :=
  if lo < hi then
    (test ((lo + hi) / 2)).bind fun holds =>
      if holds then bisect? test lo ((lo + hi) / 2) else bisect? test ((lo + hi) / 2 + 1) hi
  else some lo
termination_by hi - lo
decreasing_by all_goals omega

/-- The position of an offset; one past the end is taken back to the end. -/
def LineTable.pos? (t : LineTable) (offset : Nat) : Option Pos := do
  let o := if t.source.length < offset then t.source.length else offset
  let line ← bisect? (fun m => t.starts[m]?.map fun start => decide (o < start)) 0 t.starts.length
  -- the line before the first one that starts behind the offset
  if line = 0 then none
  else
    let start ← t.starts[line - 1]?
    let front ← Template.slice? t.source start o
    some ⟨line, Utf8.count front + 1⟩

/-! ## What it holds -/

theorem lt_of_mem_behindNewlines {s : Bytes} (h : b ∈ behindNewlines o s) : o < b := by
  induction s generalizing o with
  | nil => cases h
  | cons c rest ih =>
      rw [behindNewlines] at h
      split at h
      · rcases List.mem_cons.1 h with rfl | hrest
        · exact Nat.lt_succ_self o
        · exact Nat.lt_of_succ_lt (ih hrest)
      · exact Nat.lt_of_succ_lt (ih h)

/-- The starts behind an offset are those whose number is that of the newlines in front of it, or
greater. -/
theorem lt_behindNewlines_iff {s : Bytes} (h : (behindNewlines o s)[m]? = some b) (d : Nat) :
    o + d < b ↔ (s.take d).count '\n'.toUInt8 ≤ m := by
  induction s generalizing o m d with
  | nil => cases h
  | cons c rest ih =>
      cases d with
      | zero => simpa using lt_of_mem_behindNewlines (List.mem_of_getElem? h)
      | succ d =>
          rw [behindNewlines] at h
          rw [List.take_succ_cons, List.count_cons, ← Nat.succ_add_eq_add_succ]
          split at h
          · rename_i hc
            rw [if_pos hc]
            cases m with
            | zero =>
                obtain rfl : o + 1 = b := Option.some.inj h
                omega
            | succ m => rw [ih h d, Nat.add_le_add_iff_right]
          · rename_i hc
            rw [if_neg hc, Nat.add_zero, ih h d]

theorem behindNewlines_append_newline (o : Nat) (v w : Bytes) :
    (behindNewlines o (v ++ '\n'.toUInt8 :: w))[v.count '\n'.toUInt8]? =
      some (o + v.length + 1) := by
  induction v generalizing o with
  | nil => rfl
  | cons c v ih =>
      have hsum : o + 1 + v.length + 1 = o + (v.length + 1) + 1 := by omega
      rw [List.cons_append, behindNewlines, List.count_cons, List.length_cons, ← hsum]
      split
      · rw [List.getElem?_cons_succ, ih]
      · exact ih (o + 1)

theorem newline_notMem_lastLine (u : Bytes) : '\n'.toUInt8 ∉ lastLine u := by
  intro hmem
  have hall := List.all_eq_true.1 (List.all_takeWhile (p := (· != '\n'.toUInt8)) (l := u.reverse))
  simpa using hall _ (List.mem_reverse.1 hmem)

/-- A text is its last line, or ends with a newline and its last line. -/
theorem eq_lastLine (u : Bytes) :
    u = lastLine u ∨ ∃ v, u = v ++ '\n'.toUInt8 :: lastLine u := by
  have hsplit : u.reverse.takeWhile (· != '\n'.toUInt8) ++ u.reverse.dropWhile (· != '\n'.toUInt8) =
      u.reverse := List.takeWhile_append_dropWhile
  have hstop := List.head?_dropWhile_not (· != '\n'.toUInt8) u.reverse
  cases hdrop : u.reverse.dropWhile (· != '\n'.toUInt8) with
  | nil =>
      rw [hdrop, List.append_nil] at hsplit
      exact .inl (by rw [lastLine, hsplit, List.reverse_reverse])
  | cons c v =>
      rw [hdrop] at hsplit hstop
      obtain rfl : c = '\n'.toUInt8 := by simpa using hstop
      refine .inr ⟨v.reverse, ?_⟩
      simpa [lastLine] using (congrArg List.reverse hsplit).symm

theorem slice_line {source : Bytes} (hle : o ≤ source.length) :
    ∃ start, (LineTable.ofSource source).starts[(source.take o).count '\n'.toUInt8]? = some start ∧
      Template.slice? source start o = some (lastLine (source.take o)) := by
  have hslice (front line : Bytes) (hfront : source.take o = front ++ line) :
      Template.slice? source front.length o = some line := by
    have hlen : front.length + line.length = o := by
      rw [← List.length_append, ← hfront, List.length_take_of_le hle]
    have hdrop : (source.take o).drop front.length = line := by rw [hfront, List.drop_left]
    rw [Template.slice?, if_pos ⟨by omega, hle⟩, ← List.drop_take, hdrop]
  have hnone := newline_notMem_lastLine (source.take o)
  rcases eq_lastLine (source.take o) with hline | ⟨v, hv⟩
  · rw [hline, List.count_eq_zero.2 hnone, ← hline]
    exact ⟨0, rfl, hslice [] _ hline⟩
  · generalize lastLine (source.take o) = line at hnone hv
    have hslice := hslice (v ++ ['\n'.toUInt8]) line (by rw [hv, List.append_cons])
    have hsource : source = v ++ '\n'.toUInt8 :: (line ++ source.drop o) := by
      rw [← List.cons_append, ← List.append_assoc, ← hv, List.take_append_drop]
    have hstart := behindNewlines_append_newline 0 v (line ++ source.drop o)
    rw [← hsource, Nat.zero_add] at hstart
    rw [List.length_append, List.length_singleton] at hslice
    refine ⟨v.length + 1, ?_, hslice⟩
    rw [hv, List.count_append, List.count_cons_self, List.count_eq_zero.2 hnone]
    exact hstart

/-! ## Bisection -/

theorem bisect?_eq {test : Nat → Option Bool} {lo hi k : Nat} (hlo : lo ≤ k) (hhi : k ≤ hi)
    (htest : ∀ m < hi, test m = some (decide (k ≤ m))) : bisect? test lo hi = some k := by
  fun_induction bisect? test lo hi with
  | case1 lo hi hlt ihlo ihhi =>
      rw [htest _ (by omega), Option.bind_some]
      by_cases hk : k ≤ (lo + hi) / 2
      · rw [if_pos (decide_eq_true hk)]
        exact ihlo hlo hk fun m hm => htest m (by omega)
      · rw [if_neg (by simpa using hk)]
        exact ihhi (by omega) hhi htest
  | case2 lo hi hnot => rw [Nat.le_antisymm hlo (by omega)]

/-- The table gives every offset the position it has by the text in front of it. -/
theorem pos?_ofSource (source : Bytes) (offset : Nat) :
    (LineTable.ofSource source).pos? offset = some (ofOffset source offset) := by
  have hclamp : (if source.length < offset then source.length else offset) =
      min offset source.length := by
    split
    · omega
    · omega
  have htake : source.take offset = source.take (min offset source.length) := by
    rw [← List.take_take, List.take_length]
  obtain ⟨start, hstart, hslice⟩ := slice_line (Nat.min_le_right offset source.length)
  rw [ofOffset, htake]
  generalize min offset source.length = o at hclamp hstart hslice
  have hline : bisect? (fun m => (LineTable.ofSource source).starts[m]?.map fun start =>
      decide (o < start)) 0 (LineTable.ofSource source).starts.length =
        some ((source.take o).count '\n'.toUInt8 + 1) := by
    refine bisect?_eq (Nat.zero_le _) ?_ fun m hm => ?_
    · exact (List.getElem?_eq_some_iff.1 hstart).1
    · rw [List.getElem?_eq_getElem hm, Option.map_some, Option.some.injEq, decide_eq_decide]
      cases m with
      | zero => simp [LineTable.ofSource]
      | succ m =>
          have hget : (behindNewlines 0 source)[m]? =
              some (LineTable.ofSource source).starts[m + 1] := (List.getElem?_eq_getElem hm)
          rw [Nat.add_le_add_iff_right, ← lt_behindNewlines_iff hget, Nat.zero_add]
  have hsource : (LineTable.ofSource source).source = source := rfl
  rw [LineTable.pos?, hsource, hclamp]
  simp only [hline, hstart, hslice, Option.bind_eq_bind, Option.bind_some, Nat.add_sub_cancel,
    Nat.succ_ne_zero, if_false]

end Pos

end TagLoom

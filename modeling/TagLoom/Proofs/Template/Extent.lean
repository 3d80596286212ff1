import TagLoom.Template.Token

/-!
# Extents of marks

How far a quoted value, a brace group or a tag reaches does not depend on what follows it.
-/

namespace TagLoom

namespace Scan

-- Built once here: the proofs below are elaborated side by side, and each would wait for them.
attribute [elab_as_elim] skipText.induct_unfolding closeBraces.induct_unfolding
  quoted?.induct_unfolding tagEnd.induct_unfolding

variable {quote : UInt8} {sameLine : Bool} {depth : Nat} {s z : Bytes}

/-! ## Text literals -/

theorem skipText_lt (h : (skipText quote sameLine s).2 = true) :
    (skipText quote sameLine s).1 < s.length := by
  fun_induction skipText quote sameLine s with
  | case1 => cases h
  | case2 => cases h
  | case3 c hc d rest n ok hrest ih =>
      rw [hrest] at ih
      have hlt := ih h
      simp only [List.length_cons]
      omega
  | case4 c rest hc hquote => simp
  | case5 => cases h
  | case6 c rest hc hquote hline n ok hrest ih =>
      rw [hrest] at ih
      have hlt := ih h
      simp only [List.length_cons]
      omega

theorem skipText_le (quote : UInt8) (sameLine : Bool) (s : Bytes) :
    (skipText quote sameLine s).1 ≤ s.length := by
  fun_induction skipText quote sameLine s with
  | case1 => simp
  | case2 => simp
  | case3 c hc d rest n ok hrest ih =>
      rw [hrest] at ih
      simp only [List.length_cons]
      omega
  | case4 => simp
  | case5 => simp
  | case6 c rest hc hquote hline n ok hrest ih =>
      rw [hrest] at ih
      simp only [List.length_cons]
      omega

theorem skipText_append (h : (skipText quote sameLine s).2 = true) (z : Bytes) :
    skipText quote sameLine (s ++ z) = skipText quote sameLine s := by
  fun_induction skipText quote sameLine s with
  | case1 => cases h
  | case2 => cases h
  | case3 c hc d rest n ok hrest ih =>
      rw [hrest] at ih
      simp [skipText, hc, ih h]
  | case4 c rest hc hquote =>
      rw [List.cons_append, skipText.eq_def]
      simp [hc, hquote]
  | case5 => cases h
  | case6 c rest hc hquote hline n ok hrest ih =>
      rw [hrest] at ih
      rw [List.cons_append, skipText.eq_def]
      simp [hc, hquote, hline, ih h]

theorem skipText_eq_false (hz : quote ∉ z) : (skipText quote sameLine z).2 = false := by
  fun_induction skipText quote sameLine z with
  | case1 => rfl
  | case2 => rfl
  | case3 c hc d rest n ok hrest ih =>
      rw [hrest] at ih
      exact ih fun hmem => hz (by simp [hmem])
  | case4 c rest hc hquote => exact absurd (by simp [eq_of_beq hquote]) hz
  | case5 => rfl
  | case6 c rest hc hquote hline n ok hrest ih =>
      rw [hrest] at ih
      exact ih fun hmem => hz (by simp [hmem])

theorem skipText_append_eq_false (h : (skipText quote sameLine s).2 = false) (hz : quote ∉ z) :
    (skipText quote sameLine (s ++ z)).2 = false := by
  fun_induction skipText quote sameLine s with
  | case1 => exact skipText_eq_false hz
  | case2 c hc =>
      cases z with
      | nil => simp [skipText, hc]
      | cons d z =>
          have htail : (skipText quote sameLine z).2 = false :=
            skipText_eq_false (List.not_mem_of_not_mem_cons hz)
          simp [skipText, hc, htail]
  | case3 c hc d rest n ok hrest ih =>
      rw [hrest] at ih
      simp [skipText, hc, ih h]
  | case4 => cases h
  | case5 c rest hc hquote hline =>
      rw [List.cons_append, skipText.eq_def]
      simp [hc, hquote, hline]
  | case6 c rest hc hquote hline n ok hrest ih =>
      rw [hrest] at ih
      rw [List.cons_append, skipText.eq_def]
      simp [hc, hquote, hline, ih h]

/-! ## Brace groups -/

theorem closeBraces_lt (h : (closeBraces sameLine depth s).2 = true) :
    (closeBraces sameLine depth s).1 < s.length := by
  fun_induction closeBraces sameLine depth s with
  | case1 => cases h
  | case2 depth c rest hc n ok hrest ih =>
      rw [hrest] at ih
      exact Nat.succ_lt_succ (ih h)
  | case3 => simp
  | case4 depth c rest hc hclose hdepth n ok hrest ih =>
      rw [hrest] at ih
      exact Nat.succ_lt_succ (ih h)
  | case5 => cases h
  | case6 depth c rest hc hclose hline hquote n m ok hrest htext ih =>
      rw [hrest] at ih
      have hlt := ih h
      rw [List.length_drop] at hlt
      simp only [List.length_cons]
      omega
  | case7 => cases h
  | case8 depth c rest hc hclose hline hquote n ok hrest ih =>
      rw [hrest] at ih
      exact Nat.succ_lt_succ (ih h)

theorem closeBraces_le (sameLine : Bool) (depth : Nat) (s : Bytes) :
    (closeBraces sameLine depth s).1 ≤ s.length := by
  fun_induction closeBraces sameLine depth s with
  | case1 => simp
  | case2 depth c rest hc n ok hrest ih =>
      rw [hrest] at ih
      exact Nat.succ_le_succ ih
  | case3 => simp
  | case4 depth c rest hc hclose hdepth n ok hrest ih =>
      rw [hrest] at ih
      exact Nat.succ_le_succ ih
  | case5 => simp
  | case6 depth c rest hc hclose hline hquote n m ok hrest htext ih =>
      have hok : (skipText c sameLine rest).2 = true := by rw [htext]
      have hlt := skipText_lt hok
      rw [htext] at hlt
      rw [hrest, List.length_drop] at ih
      simp only [List.length_cons]
      omega
  | case7 depth c rest hc hclose hline hquote n ok htext hok =>
      have hle := skipText_le c sameLine rest
      rw [htext] at hle
      exact Nat.succ_le_succ hle
  | case8 depth c rest hc hclose hline hquote n ok hrest ih =>
      rw [hrest] at ih
      exact Nat.succ_le_succ ih

theorem closeBraces_append (h : (closeBraces sameLine depth s).2 = true) (z : Bytes) :
    closeBraces sameLine depth (s ++ z) = closeBraces sameLine depth s := by
  fun_induction closeBraces sameLine depth s with
  | case1 => cases h
  | case2 depth c rest hc n ok hrest ih =>
      rw [hrest] at ih
      simp [closeBraces, hc, ih h]
  | case3 depth c rest hc hclose hdepth => simp [closeBraces, hc, hclose, hdepth]
  | case4 depth c rest hc hclose hdepth n ok hrest ih =>
      rw [hrest] at ih
      simp [closeBraces, hc, hclose, hdepth, ih h]
  | case5 => cases h
  | case6 depth c rest hc hclose hline hquote n m ok hrest htext ih =>
      rw [hrest] at ih
      have hok : (skipText c sameLine rest).2 = true := by rw [htext]
      have hlt := skipText_lt hok
      rw [htext] at hlt
      have hsame := skipText_append hok z
      rw [List.cons_append, closeBraces]
      simp [hc, hclose, hline, hquote, hsame, htext, List.drop_append_of_le_length hlt, ih h]
  | case7 => cases h
  | case8 depth c rest hc hclose hline hquote n ok hrest ih =>
      rw [hrest] at ih
      rw [List.cons_append, closeBraces]
      simp [hc, hclose, hline, hquote, ih h]

theorem head?_drop_closeBraces (h : (closeBraces sameLine depth s).2 = true) :
    (s.drop (closeBraces sameLine depth s).1).head? = some '\x7d'.toUInt8 := by
  fun_induction closeBraces sameLine depth s with
  | case1 => cases h
  | case2 depth c rest hc n ok hrest ih =>
      rw [hrest] at ih
      exact ih h
  | case3 depth c rest hc hclose => exact congrArg some (beq_iff_eq.1 hclose)
  | case4 depth c rest hc hclose hdepth n ok hrest ih =>
      rw [hrest] at ih
      exact ih h
  | case5 => cases h
  | case6 depth c rest hc hclose hline hquote n m ok hrest htext ih =>
      rw [hrest, List.drop_drop] at ih
      have hsum : n + 1 + m = m + n + 1 := by omega
      rw [hsum] at ih
      exact ih h
  | case7 => cases h
  | case8 depth c rest hc hclose hline hquote n ok hrest ih =>
      rw [hrest] at ih
      exact ih h

theorem braces_cons {c : UInt8} (hc : (c == '\x7b'.toUInt8) = true) (s : Bytes) :
    braces sameLine (c :: s) = ((closeBraces sameLine 1 s).1 + 1, (closeBraces sameLine 1 s).2) := by
  rw [braces, closeBraces, if_pos hc]

/-- A text without closing braces, and without the quotes that could hide or show one. -/
def Inert (z : Bytes) : Prop := ∀ c ∈ z, isQuote c = false ∧ c ≠ '\x7d'.toUInt8

theorem Inert.tail {c : UInt8} (h : Inert (c :: z)) : Inert z := fun d hd => h d (by simp [hd])

theorem Inert.quote_not_mem (h : Inert z) (hquote : isQuote quote = true) : quote ∉ z := fun hmem =>
  absurd hquote (by simp [(h quote hmem).1])

theorem closeBraces_eq_false (hz : Inert z) : (closeBraces sameLine depth z).2 = false := by
  fun_induction closeBraces sameLine depth z with
  | case1 => rfl
  | case2 depth c rest hc n ok hrest ih =>
      rw [hrest] at ih
      exact ih hz.tail
  | case3 depth c rest hc hclose hdepth => exact absurd (eq_of_beq hclose) (hz c (by simp)).2
  | case4 depth c rest hc hclose => exact absurd (eq_of_beq hclose) (hz c (by simp)).2
  | case5 => rfl
  | case6 depth c rest hc hclose hline hquote => exact absurd hquote (by simp [(hz c (by simp)).1])
  | case7 => rfl
  | case8 depth c rest hc hclose hline hquote n ok hrest ih =>
      rw [hrest] at ih
      exact ih hz.tail

theorem closeBraces_append_eq_false (h : (closeBraces sameLine depth s).2 = false) (hz : Inert z) :
    (closeBraces sameLine depth (s ++ z)).2 = false := by
  fun_induction closeBraces sameLine depth s with
  | case1 => exact closeBraces_eq_false hz
  | case2 depth c rest hc n ok hrest ih =>
      rw [hrest] at ih
      simp [closeBraces, hc, ih h]
  | case3 => cases h
  | case4 depth c rest hc hclose hdepth n ok hrest ih =>
      rw [hrest] at ih
      simp [closeBraces, hc, hclose, hdepth, ih h]
  | case5 depth c rest hc hclose hline =>
      rw [List.cons_append, closeBraces]
      simp [hc, hclose, hline]
  | case6 depth c rest hc hclose hline hquote n m ok hrest htext ih =>
      rw [hrest] at ih
      have hok : (skipText c sameLine rest).2 = true := by rw [htext]
      have hlt := skipText_lt hok
      rw [htext] at hlt
      have hsame := skipText_append hok z
      rw [List.cons_append, closeBraces]
      simp [hc, hclose, hline, hquote, hsame, htext, List.drop_append_of_le_length hlt, ih h]
  | case7 depth c rest hc hclose hline hquote n ok htext hok =>
      have hopen : (skipText c sameLine rest).2 = false := by
        rw [htext]
        simpa using hok
      have hsame := skipText_append_eq_false hopen (hz.quote_not_mem hquote)
      rw [List.cons_append, closeBraces]
      simp [hc, hclose, hline, hquote, hsame]
  | case8 depth c rest hc hclose hline hquote n ok hrest ih =>
      rw [hrest] at ih
      rw [List.cons_append, closeBraces]
      simp [hc, hclose, hline, hquote, ih h]

/-! ## Quoted values -/

theorem quoted?_lt {n : Nat} (h : quoted? quote s = some n) : n < s.length := by
  fun_induction quoted? quote s generalizing n with
  | case1 => cases h
  | case2 c rest hc hbrace ih =>
      obtain ⟨m, hm, rfl⟩ := Option.map_eq_some_iff.1 h
      have hlt := ih hm
      rw [List.length_drop] at hlt
      simp only [List.length_cons]
      omega
  | case3 c rest hc hbrace ih =>
      obtain ⟨m, hm, rfl⟩ := Option.map_eq_some_iff.1 h
      exact Nat.succ_lt_succ (ih hm)
  | case4 => cases h
  | case5 c rest hc hbrace j hclose ih =>
      obtain ⟨m, hm, rfl⟩ := Option.map_eq_some_iff.1 h
      have hlt := ih hm
      rw [List.length_drop] at hlt
      simp only [List.length_cons]
      omega
  | case6 c rest hc hbrace hquote =>
      cases h
      simp
  | case7 c rest hc hbrace hquote ih =>
      obtain ⟨m, hm, rfl⟩ := Option.map_eq_some_iff.1 h
      exact Nat.succ_lt_succ (ih hm)

theorem quoted?_append {n : Nat} (h : quoted? quote s = some n) (z : Bytes) :
    quoted? quote (s ++ z) = some n := by
  fun_induction quoted? quote s generalizing n with
  | case1 => cases h
  | case2 c rest hc hbrace ih =>
      obtain ⟨m, hm, rfl⟩ := Option.map_eq_some_iff.1 h
      cases rest with
      | nil => cases hbrace
      | cons d rest =>
          rw [List.cons_append, quoted?]
          have hd : d = '\x7b'.toUInt8 := by simpa using hbrace
          simpa [hc, hd] using ih hm
  | case3 c rest hc hbrace ih =>
      obtain ⟨m, hm, rfl⟩ := Option.map_eq_some_iff.1 h
      cases rest with
      | nil => simp [quoted?] at hm
      | cons d rest =>
          rw [List.cons_append, quoted?]
          have hd : d ≠ '\x7b'.toUInt8 := by simpa using hbrace
          simpa [hc, hd] using ih hm
  | case4 => cases h
  | case5 c rest hc hbrace j hclose ih =>
      obtain ⟨m, hm, rfl⟩ := Option.map_eq_some_iff.1 h
      have hok : (closeBraces false 1 rest).2 = true := by rw [hclose]
      have hsame := closeBraces_append hok z
      have hlt := closeBraces_lt hok
      rw [hclose] at hlt hsame
      rw [List.cons_append, quoted?]
      simp [hc, hbrace, hsame, List.drop_append_of_le_length hlt, ih hm]
  | case6 c rest hc hbrace hquote =>
      rw [List.cons_append, quoted?]
      simp [hc, hbrace, hquote, h]
  | case7 c rest hc hbrace hquote ih =>
      obtain ⟨m, hm, rfl⟩ := Option.map_eq_some_iff.1 h
      rw [List.cons_append, quoted?]
      simp [hc, hbrace, hquote, ih hm]

/-! ## Ends of tags -/

/-- The offset just past the end of the tag this place is inside of, if the tag is finished. -/
def tagEnd? : Bytes → Option Nat
  | [] => none
  | c :: rest =>
      if c == '>'.toUInt8 then some 1
      else if c == '"'.toUInt8 || c == '\''.toUInt8 then
        match rest.findIdx? (· == c) with
        | none => none
        | some j => (tagEnd? (rest.drop (j + 1))).map (· + (j + 2))
      else if c == '\x7b'.toUInt8 then
        match closeBraces false 1 rest with
        | (_, false) => none
        | (j, true) => (tagEnd? (rest.drop (j + 1))).map (· + (j + 2))
      else (tagEnd? rest).map (· + 1)
  termination_by s => s.length
  decreasing_by
    all_goals simp only [List.length_drop, List.length_cons]; omega

private theorem getD_map_add {n k m : Nat} (o : Option Nat) (h : n + k = m) :
    (o.map (· + k)).getD m = o.getD n + k := by
  cases o with
  | none => exact h.symm
  | some i => rfl

theorem tagEnd_eq (s : Bytes) : tagEnd s = (tagEnd? s).getD s.length := by
  fun_induction tagEnd s with
  | case1 => simp [tagEnd?]
  | case2 c rest hc => simp [tagEnd?, hc]
  | case3 c rest hc hquote hfind => simp [tagEnd?, hc, hquote, hfind]
  | case4 c rest hc hquote j hfind ih =>
      have hlt : j < rest.length := (List.findIdx?_eq_some_iff_getElem.1 hfind).1
      rw [tagEnd?, if_neg hc, if_pos hquote, hfind, ih, Nat.add_assoc]
      refine (getD_map_add _ ?_).symm
      rw [List.length_drop, List.length_cons]
      omega
  | case5 c rest hc hquote hbrace n hclose => simp [tagEnd?, hc, hquote, hbrace, hclose]
  | case6 c rest hc hquote hbrace j hclose ih =>
      have hok : (closeBraces false 1 rest).2 = true := by rw [hclose]
      have hlt := closeBraces_lt hok
      rw [hclose] at hlt
      rw [tagEnd?, if_neg hc, if_neg hquote, if_pos hbrace, hclose, ih, Nat.add_assoc]
      refine (getD_map_add _ ?_).symm
      rw [List.length_drop, List.length_cons]
      omega
  | case7 c rest hc hquote hbrace ih =>
      rw [tagEnd?, if_neg hc, if_neg hquote, if_neg hbrace, ih]
      exact (getD_map_add _ rfl).symm

theorem tagEnd_le (s : Bytes) : tagEnd s ≤ s.length := by
  fun_induction tagEnd s with
  | case1 => simp
  | case2 => simp
  | case3 => simp
  | case4 c rest hc hquote j hfind ih =>
      have hlt : j < rest.length := (List.findIdx?_eq_some_iff_getElem.1 hfind).1
      rw [List.length_drop] at ih
      simp only [List.length_cons]
      omega
  | case5 => simp
  | case6 c rest hc hquote hbrace j hclose ih =>
      have hok : (closeBraces false 1 rest).2 = true := by rw [hclose]
      have hlt := closeBraces_lt hok
      rw [hclose] at hlt
      rw [List.length_drop] at ih
      simp only [List.length_cons]
      omega
  | case7 c rest hc hquote hbrace ih => exact Nat.succ_le_succ ih

theorem tagEnd_pos (c : UInt8) (rest : Bytes) : 0 < tagEnd (c :: rest) := by
  rw [tagEnd]
  split
  · exact Nat.one_pos
  split
  · split
    · exact Nat.succ_pos _
    · exact Nat.succ_pos _
  split
  · split
    · exact Nat.succ_pos _
    · exact Nat.succ_pos _
  · exact Nat.succ_pos _

theorem tagEnd?_append {n : Nat} (h : tagEnd? s = some n) (z : Bytes) :
    tagEnd? (s ++ z) = some n := by
  fun_induction tagEnd? s generalizing n with
  | case1 => cases h
  | case2 c rest hc =>
      rw [List.cons_append, tagEnd?, if_pos hc, h]
  | case3 => cases h
  | case4 c rest hc hquote j hfind ih =>
      obtain ⟨m, hm, rfl⟩ := Option.map_eq_some_iff.1 h
      have hlt : j < rest.length := (List.findIdx?_eq_some_iff_getElem.1 hfind).1
      have hsame : (rest ++ z).findIdx? (· == c) = some j := by
        rw [List.findIdx?_append, hfind]
        rfl
      rw [List.cons_append, tagEnd?, if_neg hc, if_pos hquote, hsame]
      simp only [List.drop_append_of_le_length hlt, ih hm, Option.map_some]
  | case5 => cases h
  | case6 c rest hc hquote hbrace j hclose ih =>
      obtain ⟨m, hm, rfl⟩ := Option.map_eq_some_iff.1 h
      have hok : (closeBraces false 1 rest).2 = true := by rw [hclose]
      have hsame := closeBraces_append hok z
      have hlt := closeBraces_lt hok
      rw [hclose] at hlt hsame
      rw [List.cons_append, tagEnd?, if_neg hc, if_neg hquote, if_pos hbrace, hsame]
      simp only [List.drop_append_of_le_length hlt, ih hm, Option.map_some]
  | case7 c rest hc hquote hbrace ih =>
      obtain ⟨m, hm, rfl⟩ := Option.map_eq_some_iff.1 h
      rw [List.cons_append, tagEnd?, if_neg hc, if_neg hquote, if_neg hbrace, ih hm]
      rfl

theorem tagEnd_append_of_none (h : tagEnd? s = none) (hz : Inert z) (hend : tagEnd z = z.length) :
    tagEnd (s ++ z) = (s ++ z).length := by
  fun_induction tagEnd? s with
  | case1 => exact hend
  | case2 => cases h
  | case3 c rest hc hquote hfind =>
      have hmark : isQuote c = true := by
        rw [isQuote, hquote]
        rfl
      have hnone : (rest ++ z).findIdx? (· == c) = none := by
        rw [List.findIdx?_append, hfind, List.findIdx?_eq_none_iff.2]
        · rfl
        · intro d hd
          refine beq_eq_false_iff_ne.2 ?_
          rintro rfl
          exact hz.quote_not_mem hmark hd
      rw [List.cons_append, tagEnd, if_neg hc, if_pos hquote, hnone]
      rfl
  | case4 c rest hc hquote j hfind ih =>
      have hlt : j < rest.length := (List.findIdx?_eq_some_iff_getElem.1 hfind).1
      have hsame : (rest ++ z).findIdx? (· == c) = some j := by
        rw [List.findIdx?_append, hfind]
        rfl
      rw [List.cons_append, tagEnd, if_neg hc, if_pos hquote, hsame]
      simp only [List.drop_append_of_le_length hlt, ih (Option.map_eq_none_iff.1 h),
        List.length_append, List.length_drop, List.length_cons]
      omega
  | case5 c rest hc hquote hbrace n hclose =>
      have hnone : (closeBraces false 1 rest).2 = false := by rw [hclose]
      have hopen := closeBraces_append_eq_false hnone hz
      rw [List.cons_append, tagEnd, if_neg hc, if_neg hquote, if_pos hbrace]
      split
      · rfl
      · rename_i heq
        rw [heq] at hopen
        cases hopen
  | case6 c rest hc hquote hbrace j hclose ih =>
      have hok : (closeBraces false 1 rest).2 = true := by rw [hclose]
      have hsame := closeBraces_append hok z
      have hlt := closeBraces_lt hok
      rw [hclose] at hlt hsame
      rw [List.cons_append, tagEnd, if_neg hc, if_neg hquote, if_pos hbrace, hsame]
      simp only [List.drop_append_of_le_length hlt, ih (Option.map_eq_none_iff.1 h),
        List.length_append, List.length_drop, List.length_cons]
      omega
  | case7 c rest hc hquote hbrace ih =>
      rw [List.cons_append, tagEnd, if_neg hc, if_neg hquote, if_neg hbrace,
        ih (Option.map_eq_none_iff.1 h)]
      rfl

end Scan

end TagLoom

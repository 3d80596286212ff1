import TagLoom.Proofs.Unicode.Lower
import TagLoom.Server

/-!
# Where the reload script is put

A script belongs before the last end of a body in a page, in whatever case that is written, and at
the end of a page that has none.  The place is looked for in the page in lower case, so it is found
exactly when lower case keeps the length of what stands before it.
-/

namespace TagLoom

variable {page p q s n : Bytes} {i j : Nat}

/-! ## The last occurrence of a text -/

/-- The last offset at which a text reads another one. -/
def IsLast (s n : Bytes) (i : Nat) : Prop :=
  Bytes.startsWith (s.drop i) n = true ∧ ∀ j, i < j → Bytes.startsWith (s.drop j) n = false

theorem IsLast.unique (hi : IsLast s n i) (hj : IsLast s n j) : i = j := by
  obtain hlt | heq | hgt := Nat.lt_trichotomy i j
  · exact absurd hj.1 (by simp [hi.2 j hlt])
  · exact heq
  · exact absurd hi.1 (by simp [hj.2 i hgt])

theorem lastOccurrence?_spec (hn : n ≠ []) (s : Bytes) :
    match lastOccurrence? s n with
    | some i => IsLast s n i
    | none => ∀ i, Bytes.startsWith (s.drop i) n = false := by
  have hnil : Bytes.startsWith [] n = false := by
    cases n with
    | nil => exact absurd rfl hn
    | cons => rfl
  induction s with
  | nil =>
      intro i
      rw [List.drop_nil]
      exact hnil
  | cons c rest ih =>
      rw [lastOccurrence?]
      cases hrest : lastOccurrence? rest n with
      | some i =>
          rw [hrest] at ih
          refine ⟨ih.1, fun j hj => ?_⟩
          cases j with
          | zero => omega
          | succ j => exact ih.2 j (by omega)
      | none =>
          rw [hrest] at ih
          by_cases hfirst : Bytes.startsWith (c :: rest) n = true
          · simp only [hfirst, if_true]
            refine ⟨hfirst, fun j hj => ?_⟩
            cases j with
            | zero => omega
            | succ j => exact ih j
          · simp only [hfirst]
            intro i
            cases i with
            | zero => exact Bool.eq_false_iff.2 hfirst
            | succ i => exact ih i

theorem lastOccurrence?_of_isLast (hn : n ≠ []) (h : IsLast s n i) :
    lastOccurrence? s n = some i := by
  have hspec := lastOccurrence?_spec hn s
  cases hlast : lastOccurrence? s n with
  | some j =>
      rw [hlast] at hspec
      rw [hspec.unique h]
  | none =>
      rw [hlast] at hspec
      exact absurd h.1 (by simp [hspec i])

theorem lastOccurrence?_of_not_startsWith (hn : n ≠ [])
    (h : ∀ i, Bytes.startsWith (s.drop i) n = false) : lastOccurrence? s n = none := by
  have hspec := lastOccurrence?_spec hn s
  cases hlast : lastOccurrence? s n with
  | some j =>
      rw [hlast] at hspec
      exact absurd hspec.1 (by simp [h j])
  | none => rfl

/-! ## The end of a body -/

/-- Whether a text begins with the end of a body, in whatever case. -/
def startsBodyEnd (s : Bytes) : Bool := Bytes.startsWith (Bytes.lowerAscii s) "</body>"

/-- The two parts of a page between which a script belongs: before the last end of a body, and at
the end of a page without one. -/
structure ScriptPlace (page p q : Bytes) : Prop where
  whole : p ++ q = page
  place : (startsBodyEnd q = true ∧ ∀ i, 0 < i → startsBodyEnd (q.drop i) = false) ∨
    (q = [] ∧ ∀ i, startsBodyEnd (page.drop i) = false)

theorem startsBodyEnd_drop (s : Bytes) (i : Nat) :
    startsBodyEnd (s.drop i) = Bytes.startsWith ((Bytes.lowerAscii s).drop i) "</body>" := by
  rw [startsBodyEnd, Bytes.lowerAscii, Bytes.lowerAscii, List.map_drop]

theorem startsBodyEnd_iff (s : Bytes) :
    startsBodyEnd s = true ↔
      ∃ m t, s = m ++ t ∧ Bytes.lowerAscii m = Bytes.ofString "</body>" := by
  rw [startsBodyEnd, Bytes.startsWith, List.isPrefixOf_iff_prefix]
  constructor
  · rintro ⟨t', h⟩
    obtain ⟨m, t, hs, hm, -⟩ := List.map_eq_append_iff.1 h.symm
    exact ⟨m, t, hs, hm⟩
  · rintro ⟨m, t, rfl, hm⟩
    exact ⟨Bytes.lowerAscii t, by rw [← hm]; simp [Bytes.lowerAscii]⟩

theorem exists_scriptPlace (page : Bytes) : ∃ p q, ScriptPlace page p q := by
  have hne : Bytes.ofString "</body>" ≠ [] := by decide_cbv
  have hspec := lastOccurrence?_spec hne (Bytes.lowerAscii page)
  cases hlast : lastOccurrence? (Bytes.lowerAscii page) "</body>" with
  | some i =>
      rw [hlast] at hspec
      refine ⟨page.take i, page.drop i, List.take_append_drop i page, .inl ⟨?_, fun j hj => ?_⟩⟩
      · rw [startsBodyEnd_drop]
        exact hspec.1
      · rw [List.drop_drop, startsBodyEnd_drop]
        exact hspec.2 (i + j) (by omega)
  | none =>
      rw [hlast] at hspec
      exact ⟨page, [], by simp, .inr ⟨rfl, fun i => by rw [startsBodyEnd_drop]; exact hspec i⟩⟩

theorem ScriptPlace.eq_take (h : ScriptPlace page p q) :
    p = page.take p.length ∧ q = page.drop p.length := by
  rw [← h.whole]
  simp

theorem ScriptPlace.isLast (h : ScriptPlace page p q) (hq : q ≠ []) :
    IsLast (Bytes.lowerAscii page) "</body>" p.length := by
  obtain ⟨hfirst, hlater⟩ | ⟨hnil, -⟩ := h.place
  · obtain ⟨-, hq'⟩ := h.eq_take
    refine ⟨?_, fun j hj => ?_⟩
    · rw [← startsBodyEnd_drop, ← hq']
      exact hfirst
    · have hdrop : page.drop j = q.drop (j - p.length) := by
        rw [hq', List.drop_drop]
        congr 1
        omega
      rw [← startsBodyEnd_drop, hdrop]
      exact hlater _ (by omega)
  · exact absurd hnil hq

theorem startsBodyEnd_nil : startsBodyEnd [] = false := by
  decide_cbv

theorem ScriptPlace.of_nil (h : ScriptPlace page p []) :
    p = page ∧ ∀ i, startsBodyEnd (page.drop i) = false := by
  obtain ⟨hfirst, -⟩ | ⟨-, hnone⟩ := h.place
  · exact absurd hfirst (by simp [startsBodyEnd_nil])
  · exact ⟨by simpa using h.whole, hnone⟩

theorem ScriptPlace.unique {p' q' : Bytes} (h : ScriptPlace page p q)
    (h' : ScriptPlace page p' q') : p' = p ∧ q' = q := by
  obtain ⟨hp, hq⟩ := h.eq_take
  obtain ⟨hp', hq'⟩ := h'.eq_take
  have hlength : p'.length = p.length := by
    by_cases hnil : q = [] <;> by_cases hnil' : q' = []
    · subst hnil hnil'
      rw [h.of_nil.1, h'.of_nil.1]
    · subst hnil
      have hlast := (h'.isLast hnil').1
      rw [← startsBodyEnd_drop, h.of_nil.2] at hlast
      exact absurd hlast (by simp)
    · subst hnil'
      have hlast := (h.isLast hnil).1
      rw [← startsBodyEnd_drop, h'.of_nil.2] at hlast
      exact absurd hlast (by simp)
    · exact (h'.isLast hnil').unique (h.isLast hnil)
  rw [hlength] at hp' hq'
  exact ⟨hp'.trans hp.symm, hq'.trans hq.symm⟩

/-! ## In lower case -/

open Unicode

theorem bodyEnd_ascii : ∀ x ∈ Bytes.ofString "</body>", x < 0x80 ∧ isShared x = false := by
  have hall : (Bytes.ofString "</body>").all (fun x => x < 0x80 && !isShared x) = true := by
    decide_cbv
  intro x hx
  simpa using List.all_eq_true.1 hall x hx

/-- The page in lower case reads the end of a body where the page has one, in the lower case of what
stands before it. -/
theorem startsWith_lowerText_iff (page : Bytes) (i : Nat) :
    Bytes.startsWith ((lowerText page).drop i) "</body>" = true ↔
      ∃ p q, p ++ q = page ∧ startsBodyEnd q = true ∧ (lowerText p).length = i := by
  constructor
  · intro h
    obtain ⟨b, hb⟩ := List.isPrefixOf_iff_prefix.1 h
    have hi : i ≤ (lowerText page).length := by
      refine Nat.le_of_lt (Nat.lt_of_not_le fun hle => ?_)
      rw [List.drop_of_length_le hle] at h
      exact absurd h (by decide_cbv)
    have hsplit : lowerText page = (lowerText page).take i ++ Bytes.ofString "</body>" ++ b := by
      rw [List.append_assoc, hb, List.take_append_drop]
    obtain ⟨p, m, t, hpage, -, hm, hp, -⟩ :=
      exists_of_lowerText_eq_append (by decide_cbv) bodyEnd_ascii hsplit
    refine ⟨p, m ++ t, by rw [hpage, List.append_assoc], ?_, ?_⟩
    · exact (startsBodyEnd_iff _).2 ⟨m, t, rfl, hm⟩
    · rw [hp, List.length_take]
      omega
  · rintro ⟨p, q, rfl, hq, rfl⟩
    obtain ⟨m, t, rfl, hm⟩ := (startsBodyEnd_iff q).1 hq
    have hascii : isAscii m = true := by
      rw [← isAscii_lowerAscii, hm]
      decide_cbv
    have hne : m ≠ [] := by
      rintro rfl
      exact absurd hm (by decide_cbv)
    rw [← List.append_assoc, lowerText_append_of_isAscii hascii hne, List.append_assoc,
      List.drop_left, hm]
    exact List.isPrefixOf_iff_prefix.2 (List.prefix_append _ _)

theorem head_lt_of_startsBodyEnd {c : UInt8} {rest : Bytes}
    (h : startsBodyEnd (c :: rest) = true) : c < 0x80 := by
  obtain ⟨m, t, hm, hlower⟩ := (startsBodyEnd_iff _).1 h
  have hascii : isAscii m = true := by
    rw [← isAscii_lowerAscii, hlower]
    decide_cbv
  cases m with
  | nil => exact absurd hlower (by decide_cbv)
  | cons d m =>
      rw [List.cons_append, List.cons.injEq] at hm
      exact hm.1 ▸ (isAscii_iff _).1 hascii d List.mem_cons_self

theorem length_lowerText_lt {p' q' : Bytes} (h : p ++ q = p' ++ q') (hq : startsBodyEnd q = true)
    (hlt : p.length < p'.length) : (lowerText p).length < (lowerText p').length := by
  obtain ⟨r, rfl, hr⟩ | ⟨r, rfl, -⟩ := List.append_eq_append_iff.1 h
  · cases r with
    | nil => simp at hlt
    | cons c r =>
        have hc : c < 0x80 := head_lt_of_startsBodyEnd (hr ▸ hq)
        rw [lowerText_append p r (Utf8.isContinuation_ascii hc), List.length_append,
          lowerText_cons_ascii r hc, List.length_cons]
        omega
  · rw [List.length_append] at hlt
    omega

theorem ScriptPlace.isLast_lowerText (h : ScriptPlace page p q) (hq : q ≠ []) :
    IsLast (lowerText page) "</body>" (lowerText p).length := by
  have hlast := h.isLast hq
  have hfirst : startsBodyEnd q = true := by
    rw [h.eq_take.2, startsBodyEnd_drop]
    exact hlast.1
  refine ⟨(startsWith_lowerText_iff page _).2 ⟨p, q, h.whole, hfirst, rfl⟩, fun j hj => ?_⟩
  refine Bool.eq_false_iff.2 fun hoccurs => ?_
  obtain ⟨p', q', hwhole, hq', rfl⟩ := (startsWith_lowerText_iff page j).1 hoccurs
  have hdrop : q' = page.drop p'.length := by
    rw [← hwhole]
    simp
  -- an end of the body further right in lower case is one further right in the page
  obtain hlt | heq | hgt := Nat.lt_trichotomy p.length p'.length
  · have hnot := hlast.2 _ hlt
    rw [← startsBodyEnd_drop, ← hdrop, hq'] at hnot
    exact absurd hnot (by simp)
  · have hp : p = p' := List.append_inj_left (h.whole.trans hwhole.symm) heq
    rw [hp] at hj
    exact absurd hj (Nat.lt_irrefl _)
  · exact absurd (length_lowerText_lt (hwhole.trans h.whole.symm) hq' hgt) (by omega)

theorem ScriptPlace.lastOccurrence?_eq (h : ScriptPlace page p q) :
    lastOccurrence? (lowerText page) "</body>" =
      if q = [] then none else some (lowerText p).length := by
  have hne : Bytes.ofString "</body>" ≠ [] := by decide_cbv
  split
  · next hq =>
    subst hq
    refine lastOccurrence?_of_not_startsWith hne fun i => Bool.eq_false_iff.2 fun hoccurs => ?_
    obtain ⟨p', q', hwhole, hq', -⟩ := (startsWith_lowerText_iff page i).1 hoccurs
    have hnone := h.of_nil.2 p'.length
    rw [← hwhole, List.drop_left, hq'] at hnone
    exact absurd hnone (by simp)
  · next hq => exact lastOccurrence?_of_isLast hne (h.isLast_lowerText hq)

/-! ## The script in the page -/

/-- What putting a script into a page does, in terms of the place where it belongs. -/
theorem ScriptPlace.injectScript_eq (h : ScriptPlace page p q) (script : Bytes) :
    injectScript page script =
      if q = [] then some (page ++ script)
      else if (lowerText p).length ≤ page.length then
        some (page.take (lowerText p).length ++ script ++ page.drop (lowerText p).length)
      else none := by
  rw [injectScript, h.lastOccurrence?_eq]
  by_cases hq : q = [] <;> simp [hq]

theorem insert_byte_ne {k l : Nat} (hkl : k < l) (hl : l ≤ s.length) :
    ∃ b : UInt8, s.take k ++ [b] ++ s.drop k ≠ s.take l ++ [b] ++ s.drop l := by
  have hk : k < s.length := by omega
  refine ⟨s[k] + 1, fun h => ?_⟩
  have hat := congrArg (·[k]?) h
  have hleft : (s.take k ++ [s[k] + 1] ++ s.drop k)[k]? = some (s[k] + 1) := by
    simp [Nat.min_eq_left (Nat.le_of_lt hk)]
  have hright : (s.take l ++ [s[k] + 1] ++ s.drop l)[k]? = some s[k] := by
    rw [List.append_assoc, List.getElem?_append_left (by simp; omega),
      List.getElem?_take_of_lt hkl, List.getElem?_eq_getElem hk]
  simp only [hleft, hright, Option.some.injEq] at hat
  grind

theorem eq_of_insert_eq {k l : Nat} (hk : k ≤ s.length) (hl : l ≤ s.length)
    (h : ∀ script, s.take k ++ script ++ s.drop k = s.take l ++ script ++ s.drop l) : k = l := by
  obtain hlt | heq | hgt := Nat.lt_trichotomy k l
  · obtain ⟨b, hb⟩ := insert_byte_ne hlt hl
    exact absurd (h [b]) hb
  · exact heq
  · obtain ⟨b, hb⟩ := insert_byte_ne hgt hk
    exact absurd (h [b]).symm hb

/-- Each page has one place for a script, and scripts are put there exactly if the page has no end
of a body or what stands before the last one keeps its length in lower case. -/
theorem injectScript_inserts_iff (page : Bytes) :
    ∃ p q, (∀ p' q', ScriptPlace page p' q' ↔ p' = p ∧ q' = q) ∧
      ((∀ script, injectScript page script = some (p ++ script ++ q)) ↔
        q = [] ∨ (lowerText p).length = p.length) := by
  obtain ⟨p, q, h⟩ := exists_scriptPlace page
  refine ⟨p, q, fun p' q' => ⟨h.unique, fun heq => heq.1 ▸ heq.2 ▸ h⟩, ?_⟩
  by_cases hq : q = []
  · subst hq
    refine iff_of_true (fun script => ?_) (.inl rfl)
    rw [h.injectScript_eq, if_pos rfl, h.of_nil.1, List.append_nil]
  obtain ⟨hp, hq'⟩ := h.eq_take
  have hle : p.length ≤ page.length := by
    rw [← h.whole, List.length_append]
    omega
  constructor
  · intro hinserts
    have hk : (lowerText p).length ≤ page.length := by
      refine Nat.le_of_not_lt fun hlt => ?_
      have hnone := hinserts []
      rw [h.injectScript_eq, if_neg hq, if_neg (by omega)] at hnone
      cases hnone
    refine .inr (eq_of_insert_eq hk hle fun script => ?_)
    have hsome := hinserts script
    rw [h.injectScript_eq, if_neg hq, if_pos hk, Option.some.injEq] at hsome
    rw [hsome, ← hp, ← hq']
  · rintro (hnil | hlength) script
    · exact absurd hnil hq
    · rw [h.injectScript_eq, if_neg hq, hlength, if_pos hle, ← hp, ← hq']

/-- A page with the sign of a unit that takes three bytes, and one in lower case. -/
def temperaturePage : Bytes := "<body><p>300 \u212a</p></body>"

/-- The script of this page is put into the mark that ends the paragraph. -/
theorem injectScript_temperaturePage_ne :
    ¬∃ p q, ScriptPlace temperaturePage p q ∧
      injectScript temperaturePage "x" = some (p ++ Bytes.ofString "x" ++ q) := by
  rintro ⟨p, q, h, hinserts⟩
  have hplace : ScriptPlace temperaturePage "<body><p>300 \u212a</p>" "</body>" := by
    have hshort : ∀ i < 7, 0 < i → startsBodyEnd (("</body>" : Bytes).drop i) = false := by
      decide_cbv
    refine ⟨by decide_cbv, .inl ⟨by decide_cbv, fun i hi => ?_⟩⟩
    by_cases hlt : i < 7
    · exact hshort i hlt hi
    · rw [List.drop_of_length_le (Nat.not_lt.1 hlt), startsBodyEnd_nil]
  obtain ⟨rfl, rfl⟩ := hplace.unique h
  exact absurd hinserts (by decide_cbv)

/-- Letters that take more bytes in lower case can leave no place in the page at all. -/
example : injectScript ((List.replicate 8 [0xC8, 0xBA]).flatten ++ Bytes.ofString "</body>") "x" =
    none := by
  decide_cbv

end TagLoom

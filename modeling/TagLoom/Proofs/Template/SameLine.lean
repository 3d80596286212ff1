import TagLoom.Proofs.Bytes.Text
import TagLoom.Template.Token

/-!
# Brace groups on one line

A brace group is read byte by byte: between text literals braces nest, and inside of one a backslash
hides the byte after it.  The search for the end of a group that has to close on its line stops at the
first newline, unless a backslash hides it: then it goes on to the next line.
-/

namespace TagLoom

namespace Scan

/-! ## Reading byte by byte -/

/-- Where the reading of a brace group stands. -/
inductive Spot where
  | code (depth : Nat)
  | literal (depth : Nat) (quote : UInt8)
  /-- In a text literal, behind a backslash that hides the next byte. -/
  | hidden (depth : Nat) (quote : UInt8)
  | closed
deriving DecidableEq

namespace Spot

def step : Spot → UInt8 → Spot
  | .code depth, c =>
      if c == '\x7b'.toUInt8 then .code (depth + 1)
      else if c == '\x7d'.toUInt8 then if depth ≤ 1 then .closed else .code (depth - 1)
      else if isQuote c then .literal depth c
      else .code depth
  | .literal depth quote, c =>
      if c == '\\'.toUInt8 && quote != 0x60 then .hidden depth quote
      else if c == quote then .code depth
      else .literal depth quote
  | .hidden depth quote, _ => .literal depth quote
  | .closed, _ => .closed

def run (p : Spot) (s : Bytes) : Spot := s.foldl step p

def isHidden : Spot → Bool
  | .hidden _ _ => true
  | _ => false

@[simp] theorem run_nil (p : Spot) : p.run [] = p := rfl

@[simp] theorem run_cons (p : Spot) (c : UInt8) (s : Bytes) : p.run (c :: s) = (p.step c).run s :=
  rfl

theorem run_closed (s : Bytes) : closed.run s = closed := by
  induction s with
  | nil => rfl
  | cons c s ih => exact ih

end Spot

/-- Where a reading ends: at the byte that closes the group, at a newline that no backslash hides when
the group has to close on its line, or with the text. -/
@[grind =] def search (sameLine : Bool) (p : Spot) : Bytes → Nat × Bool
  | [] => (0, false)
  | c :: rest =>
      if sameLine && c == '\n'.toUInt8 && !p.isHidden then (0, false)
      else if p.step c = .closed then (0, true)
      else ((search sameLine (p.step c) rest).1 + 1, (search sameLine (p.step c) rest).2)

variable {sameLine : Bool} {depth : Nat} {quote c : UInt8} {p : Spot} {s rest : Bytes}

theorem ne_newline_of_isQuote (h : isQuote c = true) : c ≠ '\n'.toUInt8 := by
  rintro rfl
  cases h

theorem search_cons (hline : c = '\n'.toUInt8 → sameLine = true → p.isHidden = true)
    (hstep : p.step c ≠ .closed) : search sameLine p (c :: rest) =
      ((search sameLine (p.step c) rest).1 + 1, (search sameLine (p.step c) rest).2) := by
  have hgo : ¬(sameLine && c == '\n'.toUInt8 && !p.isHidden) = true := by
    simp only [Bool.and_eq_true, beq_iff_eq, Bool.not_eq_true', not_and, Bool.not_eq_false]
    exact fun ⟨hsame, hbyte⟩ => hline hbyte hsame
  rw [search, if_neg hgo, if_neg hstep]

theorem search_literal (hquote : isQuote quote = true) (s : Bytes) :
    search sameLine (.literal depth quote) s =
      if (skipText quote sameLine s).2 then
        ((search sameLine (.code depth) (s.drop ((skipText quote sameLine s).1 + 1))).1 +
            (skipText quote sameLine s).1 + 1,
          (search sameLine (.code depth) (s.drop ((skipText quote sameLine s).1 + 1))).2)
      else skipText quote sameLine s := by
  have hnewline := ne_newline_of_isQuote hquote
  have hslash : '\\'.toUInt8 ≠ '\n'.toUInt8 := by decide
  fun_induction skipText quote sameLine s with
  | case1 => rfl
  | case2 c hc =>
      have hstep : Spot.step (.literal depth quote) c = .hidden depth quote := by
        simp [Spot.step, hc]
      have hbyte : c = '\\'.toUInt8 := by simp_all
      rw [search_cons (fun h => absurd (hbyte ▸ h) hslash) (by simp [hstep]), hstep]
      rfl
  | case3 c hc d rest n ok hrest ih =>
      have hstep : Spot.step (.literal depth quote) c = .hidden depth quote := by
        simp [Spot.step, hc]
      have hbyte : c = '\\'.toUInt8 := by simp_all
      rw [hrest] at ih
      rw [search_cons (fun h => absurd (hbyte ▸ h) hslash) (by simp [hstep]), hstep,
        search_cons (fun _ _ => rfl) (by simp [Spot.step]), Spot.step, ih]
      cases ok with
      | true => simp; omega
      | false => simp
  | case4 c rest hc hend =>
      have hstep : Spot.step (.literal depth quote) c = .code depth := by
        simp [Spot.step, hc, hend]
      rw [search_cons (fun h => absurd ((eq_of_beq hend) ▸ h) hnewline) (by simp [hstep]), hstep]
      simp
  | case5 c rest hc hend hline =>
      simp_all [search, Spot.isHidden]
  | case6 c rest hc hend hline n ok hrest ih =>
      have hstep : Spot.step (.literal depth quote) c = .literal depth quote := by
        simp [Spot.step, hc, hend]
      rw [hrest] at ih
      rw [search_cons (fun h h' => absurd (by simp [h, h']) hline) (by simp [hstep]), hstep, ih]
      cases ok with
      | true => simp; omega
      | false => simp

theorem closeBraces_eq_search (s : Bytes) :
    closeBraces sameLine depth s = search sameLine (.code depth) s := by
  have hopen : '\x7b'.toUInt8 ≠ '\n'.toUInt8 := by decide
  have hshut : '\x7d'.toUInt8 ≠ '\n'.toUInt8 := by decide
  fun_induction closeBraces sameLine depth s with
  | case1 => rfl
  | case2 depth c rest hc n ok hrest ih =>
      have hstep : Spot.step (.code depth) c = .code (depth + 1) := by simp [Spot.step, hc]
      rw [search_cons (fun h => absurd ((eq_of_beq hc) ▸ h) hopen) (by simp [hstep]), hstep, ← ih,
        hrest]
  | case3 depth c rest hc hclose hdepth =>
      have hstep : Spot.step (.code depth) c = .closed := by simp [Spot.step, hc, hclose, hdepth]
      have hbyte : c ≠ '\n'.toUInt8 := eq_of_beq hclose ▸ hshut
      rw [search, if_neg (by simp [hbyte]), if_pos hstep]
  | case4 depth c rest hc hclose hdepth n ok hrest ih =>
      have hstep : Spot.step (.code depth) c = .code (depth - 1) := by
        simp [Spot.step, hc, hclose, hdepth]
      rw [search_cons (fun h => absurd ((eq_of_beq hclose) ▸ h) hshut) (by simp [hstep]), hstep,
        ← ih, hrest]
  | case5 depth c rest hc hclose hline =>
      simp_all [search, Spot.isHidden]
  | case6 depth c rest hc hclose hline hquote n m ok hrest htext ih =>
      have hstep : Spot.step (.code depth) c = .literal depth c := by
        simp [Spot.step, hc, hclose, hquote]
      rw [search_cons (fun h h' => absurd (by simp [h, h']) hline) (by simp [hstep]), hstep,
        search_literal hquote, htext]
      simp only [if_true, ← ih, hrest]
  | case7 depth c rest hc hclose hline hquote n ok htext hok =>
      have hstep : Spot.step (.code depth) c = .literal depth c := by
        simp [Spot.step, hc, hclose, hquote]
      rw [search_cons (fun h h' => absurd (by simp [h, h']) hline) (by simp [hstep]), hstep,
        search_literal hquote, htext]
      simp [hok]
  | case8 depth c rest hc hclose hline hquote n ok hrest ih =>
      have hstep : Spot.step (.code depth) c = .code depth := by
        simp [Spot.step, hc, hclose, hquote]
      rw [search_cons (fun h h' => absurd (by simp [h, h']) hline) (by simp [hstep]), hstep, ← ih,
        hrest]

/-! ## The line a group opens on -/

theorem Spot.step_ne_closed_of_run (h : (p.step c).run rest ≠ .closed) : p.step c ≠ .closed := by
  intro hclosed
  rw [hclosed, Spot.run_closed] at h
  exact h rfl

theorem Spot.step_ne_closed_of_isHidden (h : p.isHidden = true) : p.step c ≠ .closed := by
  cases p with
  | hidden depth quote => simp [Spot.step]
  | _ => cases h

theorem Spot.eq_close_of_step (hp : p ≠ .closed) (h : p.step c = .closed) : c = '\x7d'.toUInt8 := by
  cases p with
  | code depth =>
      simp only [Spot.step] at h
      split_ifs at h with hopen hclose
      exact eq_of_beq hclose
  | literal depth quote =>
      simp only [Spot.step] at h
      split_ifs at h
  | hidden depth quote => cases h
  | closed => exact absurd rfl hp

theorem search_passed {i : Nat} (hi : i < (search true p s).1)
    (hbyte : s[i]? = some '\n'.toUInt8) : (p.run (s.take i)).isHidden = true := by
  induction s generalizing p i with
  | nil => simp at hbyte
  | cons c rest ih =>
      rw [search] at hi
      split_ifs at hi with hline hclosed
      · simp at hi
      · simp at hi
      cases i with
      | zero =>
          obtain rfl : c = '\n'.toUInt8 := by simpa using hbyte
          simpa using hline
      | succ i =>
          simp only [Nat.add_lt_add_iff_right] at hi
          simpa using ih hi (by simpa using hbyte)

/-- Where the search stops: at the brace that closes the group, or at a newline or the end. -/
theorem search_stop (hp : p ≠ .closed) (s : Bytes) :
    ((search true p s).2 = true → s[(search true p s).1]? = some '\x7d'.toUInt8) ∧
      ((search true p s).2 = false →
        (search true p s).1 = s.length ∨ s[(search true p s).1]? = some '\n'.toUInt8) := by
  induction s generalizing p with
  | nil => simp [search]
  | cons c rest ih =>
      rw [search]
      split_ifs with hline hclosed
      · simp_all
      · simp [Spot.eq_close_of_step hp hclosed]
      · simpa using ih hclosed

theorem search_append {w : Bytes} (hw : '\n'.toUInt8 ∉ w) (hopen : p.run w ≠ .closed) (s : Bytes) :
    search true p (w ++ s) =
      ((search true (p.run w) s).1 + w.length, (search true (p.run w) s).2) := by
  induction w generalizing p with
  | nil => rfl
  | cons c w ih =>
      obtain ⟨hc, hw⟩ := not_or.1 (List.mem_cons.not.1 hw)
      rw [List.cons_append, search_cons (fun h => absurd h.symm hc)
        (Spot.step_ne_closed_of_run hopen), ih hw hopen]
      simp [Nat.add_assoc]

theorem search_append_of_closed {w : Bytes} (hw : '\n'.toUInt8 ∉ w) (hp : p ≠ .closed)
    (hclosed : p.run w = .closed) (s : Bytes) :
    (search true p (w ++ s)).2 = true ∧ (search true p (w ++ s)).1 < w.length := by
  induction w generalizing p with
  | nil => exact absurd hclosed hp
  | cons c w ih =>
      obtain ⟨hc, hw⟩ := not_or.1 (List.mem_cons.not.1 hw)
      by_cases hstep : p.step c = .closed
      · have hgo : ¬(true && c == '\n'.toUInt8 && !p.isHidden) = true := by simp [Ne.symm hc]
        rw [List.cons_append, search, if_neg hgo, if_pos hstep]
        simp
      · rw [List.cons_append, search_cons (fun h => absurd h.symm hc) hstep]
        simpa using ih hw hstep hclosed

def firstLine (s : Bytes) : Bytes := s.takeWhile (· != '\n'.toUInt8)

theorem newline_notMem_firstLine (s : Bytes) : '\n'.toUInt8 ∉ firstLine s := by
  intro hmem
  have hne := List.mem_takeWhile_imp hmem
  simp at hne

theorem firstLine_append (s : Bytes) :
    '\n'.toUInt8 ∉ s ∧ firstLine s = s ∨
      ∃ tail, s = firstLine s ++ '\n'.toUInt8 :: tail := by
  induction s with
  | nil => exact .inl ⟨List.not_mem_nil, rfl⟩
  | cons c s ih =>
      by_cases hc : c = '\n'.toUInt8
      · exact .inr ⟨s, by simp [firstLine, hc]⟩
      have hline : firstLine (c :: s) = c :: firstLine s :=
        List.takeWhile_cons_of_pos (bne_iff_ne.2 hc)
      obtain ⟨hs, heq⟩ | ⟨tail, heq⟩ := ih
      · exact .inl ⟨by simp [Ne.symm hc, hs], by rw [hline, heq]⟩
      · exact .inr ⟨tail, by rw [hline, List.cons_append, ← heq]⟩

/-- A group is searched for on its line, unless a backslash hides the newline that ends it. -/
theorem search_line (hp : p ≠ .closed) (s : Bytes) :
    (p.run (firstLine s) = .closed ∧ (search true p s).2 = true ∧
        (search true p s).1 < (firstLine s).length) ∨
      ((search true p s) = ((firstLine s).length, false) ∧
        ('\n'.toUInt8 ∈ s → (p.run (firstLine s)).isHidden = false)) ∨
      ('\n'.toUInt8 ∈ s ∧ (p.run (firstLine s)).isHidden = true ∧
        (firstLine s).length < (search true p s).1) := by
  have hline := newline_notMem_firstLine s
  by_cases hclosed : p.run (firstLine s) = .closed
  · refine .inl ⟨hclosed, ?_⟩
    obtain ⟨-, heq⟩ | ⟨tail, heq⟩ := firstLine_append s
    · simpa [heq] using search_append_of_closed hline hp hclosed []
    · have hsearch := search_append_of_closed hline hp hclosed ('\n'.toUInt8 :: tail)
      rwa [← heq] at hsearch
  refine .inr ?_
  obtain ⟨hs, heq⟩ | ⟨tail, heq⟩ := firstLine_append s
  · refine .inl ⟨?_, fun h => absurd h hs⟩
    have hsearch := search_append hline hclosed []
    rw [List.append_nil, search, Nat.zero_add, heq] at hsearch
    rw [heq]
    exact hsearch
  have hsearch := search_append hline hclosed ('\n'.toUInt8 :: tail)
  rw [← heq] at hsearch
  have hmem : '\n'.toUInt8 ∈ s := heq ▸ List.mem_append_right _ List.mem_cons_self
  cases hhidden : (p.run (firstLine s)).isHidden with
  | false =>
      refine .inl ⟨?_, fun _ => rfl⟩
      rw [hsearch, search, if_pos (by simp [hhidden]), Nat.zero_add]
  | true =>
      refine .inr ⟨hmem, rfl, ?_⟩
      rw [hsearch, search_cons (fun _ _ => hhidden) (Spot.step_ne_closed_of_isHidden hhidden)]
      simp

/-- The search ends on the line it begins on exactly when no backslash hides the end of that line. -/
theorem search_line_iff (hp : p ≠ .closed) (s : Bytes) :
    (((search true p s).2 = true → '\n'.toUInt8 ∉ s.take ((search true p s).1 + 1)) ∧
        ((search true p s).2 = false → (search true p s).1 = (firstLine s).length)) ↔
      ('\n'.toUInt8 ∈ s → (p.run (firstLine s)).isHidden = false) := by
  obtain ⟨hclosed, hfound, hlt⟩ | ⟨heq, hhidden⟩ | ⟨hmem, hhidden, hlt⟩ := search_line hp s
  · refine ⟨fun _ _ => by rw [hclosed]; rfl, fun _ => ⟨fun _ => ?_, fun h => ?_⟩⟩
    · have htake : s.take ((search true p s).1 + 1) <+: firstLine s :=
        List.prefix_of_prefix_length_le (List.take_prefix _ _) (List.takeWhile_prefix _)
          ((List.length_take_le _ _).trans hlt)
      exact fun hmem => newline_notMem_firstLine s (htake.subset hmem)
    · rw [hfound] at h
      cases h
  · rw [heq]
    exact ⟨fun _ => hhidden, fun _ => ⟨fun h => absurd h Bool.false_ne_true, fun _ => rfl⟩⟩
  · constructor
    · rintro ⟨hfound, hnone⟩
      cases hend : (search true p s).2 with
      | false => exact absurd (hnone hend) hlt.ne'
      | true =>
          obtain ⟨hnot, -⟩ | ⟨tail, heq⟩ := firstLine_append s
          · exact absurd hmem hnot
          have hbyte : s[(firstLine s).length]? = some '\n'.toUInt8 := by
            have hget := congrArg (·[(firstLine s).length]?) heq
            simpa using hget
          refine absurd (List.mem_of_getElem? (i := (firstLine s).length) ?_) (hfound hend)
          rwa [List.getElem?_take_of_lt (by omega)]
    · intro h
      rw [h hmem] at hhidden
      cases hhidden

end Scan

namespace Template

open Scan

theorem lexMarkup_open (raw : Option RawText) {off n : Nat} {rest : Bytes}
    (h : braces true ('\x7b'.toUInt8 :: rest) = (n, false)) :
    lexMarkup raw off '\x7b'.toUInt8 rest =
      .interpolation off none :: lexFrom raw (off + n + 1) (rest.drop n) := by
  have hslash : ¬('\x7b'.toUInt8 == '\\'.toUInt8 && rest.head? == some '\x7b'.toUInt8) = true := by
    have hne : ('\x7b'.toUInt8 == '\\'.toUInt8) = false := by decide
    simp [hne]
  rw [lexMarkup, if_neg hslash, if_pos (by decide), h]

/-- The search for the end of a group stops at a brace, or at a newline or the end of the text, and
every newline it has passed was hidden by a backslash in a text literal.  So a group that is found
ends on the line it opens on, and the search for one that is not ends with that line, exactly when no
backslash hides the newline there.  Then what follows an unclosed interpolation is read from the next
line on. -/
theorem braces_on_line_iff {text : Bytes} {off : Nat} (hopen : text[off]? = some '\x7b'.toUInt8) :
    let s := text.drop off
    let n := (braces true s).1
    let found := (braces true s).2
    let line := firstLine s
    let hidden := ((Spot.code 0).run line).isHidden
    ((found = true → s[n]? = some '\x7d'.toUInt8) ∧
      (found = false → n = s.length ∨ s[n]? = some '\n'.toUInt8) ∧
      ∀ i < n, s[i]? = some '\n'.toUInt8 → ((Spot.code 0).run (s.take i)).isHidden = true) ∧
    (((found = true → '\n'.toUInt8 ∉ s.take (n + 1)) ∧ (found = false → n = line.length)) ↔
      ('\n'.toUInt8 ∈ s → hidden = false)) ∧
    (found = false → ('\n'.toUInt8 ∈ s → hidden = false) → ∀ raw,
      lexMarkup raw off '\x7b'.toUInt8 (text.drop (off + 1)) =
        .interpolation off none ::
          lexFrom raw (off + line.length + 1) (text.drop (off + line.length + 1))) := by
  intro s n found line hidden
  have hbraces : braces true s = search true (.code 0) s := closeBraces_eq_search s
  have hcode : Spot.code 0 ≠ .closed := by simp
  have hn : n = (search true (.code 0) s).1 := congrArg Prod.fst hbraces
  have hfound : found = (search true (.code 0) s).2 := congrArg Prod.snd hbraces
  have hstop := search_stop hcode s
  have hline := search_line_iff hcode s
  rw [← hn, ← hfound] at hstop hline
  refine ⟨⟨hstop.1, hstop.2, fun i hi hbyte => search_passed (hn ▸ hi) hbyte⟩, hline, ?_⟩
  intro hnone hhidden raw
  have hend : n = line.length := (hline.2 hhidden).2 hnone
  have hs : s = '\x7b'.toUInt8 :: text.drop (off + 1) := by
    obtain ⟨hlt, hbyte⟩ := List.getElem?_eq_some_iff.1 hopen
    rw [← hbyte]
    exact List.drop_eq_getElem_cons hlt
  have hopenBraces : braces true ('\x7b'.toUInt8 :: text.drop (off + 1)) = (line.length, false) := by
    rw [← hs, ← hend, ← hnone]
  rw [lexMarkup_open raw hopenBraces, List.drop_drop]
  congr 3
  omega

/-- A backslash hides the newline from the search: the interpolation goes over two lines. -/
theorem braces_not_on_line :
    let text : Bytes := Bytes.ofString "\x7ba /* \"\\\n\" */\x7d"
    text[0]? = some '\x7b'.toUInt8 ∧ (braces true text).2 = true ∧
      '\n'.toUInt8 ∈ text.take ((braces true text).1 + 1) ∧
      lex text = [.interpolation 0 (some (Bytes.ofString "a /* \"\\\n\" */"))] := by
  intro text
  have hbraces : braces true text = (13, true) := by cbv
  rw [hbraces]
  exact ⟨by decide, rfl, by decide, by cbv⟩

/-- A backslash outside of a text literal hides nothing. -/
theorem braces_on_line_iff_slash :
    let text : Bytes := Bytes.ofString "\x7ba \\\nb"
    text[0]? = some '\x7b'.toUInt8 ∧ (braces true text).2 = false ∧ (braces true text).1 = 4 ∧
      lexMarkup none 0 '\x7b'.toUInt8 (text.drop 1) =
        .interpolation 0 none :: lexFrom none 5 (text.drop 5) := by
  intro text
  have hopen : text[0]? = some '\x7b'.toUInt8 := by decide
  have hnone : (braces true text).2 = false := by cbv
  have hhidden : ((Spot.code 0).run (firstLine text)).isHidden = false := by decide
  obtain ⟨-, hline, hnext⟩ := braces_on_line_iff hopen
  exact ⟨hopen, hnone, (hline.2 fun _ => hhidden).2 hnone, hnext hnone (fun _ => hhidden) none⟩

end Template

end TagLoom

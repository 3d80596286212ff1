import TagLoom.Proofs.Bytes.Text
import TagLoom.Proofs.Bytes.Utf8

/-!
# Texts in lower case

A text in lower case is read from left to right like the text itself.  Two code points that are not
ASCII have an ASCII partner, `i` and `k`; every other ASCII byte of a text in lower case comes from
an ASCII byte of the text.
-/

namespace TagLoom.Unicode

variable {s : Bytes} {x : UInt8}

/-! ## Bytes -/

theorem isUpper_iff (c : UInt8) : Bytes.isUpper c = true ↔ 65 ≤ c.toNat ∧ c.toNat ≤ 90 := by
  rw [Bytes.isUpper, Bool.and_eq_true, decide_eq_true_eq, decide_eq_true_eq,
    UInt8.le_iff_toNat_le, UInt8.le_iff_toNat_le]
  rfl

theorem isLower_iff (c : UInt8) : Bytes.isLower c = true ↔ 97 ≤ c.toNat ∧ c.toNat ≤ 122 := by
  rw [Bytes.isLower, Bool.and_eq_true, decide_eq_true_eq, decide_eq_true_eq,
    UInt8.le_iff_toNat_le, UInt8.le_iff_toNat_le]
  rfl

theorem lowerByte_toNat (c : UInt8) :
    (Bytes.lowerByte c).toNat = if Bytes.isUpper c = true then c.toNat + 32 else c.toNat := by
  unfold Bytes.lowerByte
  split
  · next h =>
    have hbounds := (isUpper_iff c).1 h
    rw [UInt8.toNat_add]
    exact Nat.mod_eq_of_lt (by change c.toNat + 32 < 256; omega)
  · rfl

theorem lowerByte_lt_iff (c : UInt8) : Bytes.lowerByte c < 0x80 ↔ c < 0x80 := by
  have hbound : (0x80 : UInt8).toNat = 128 := rfl
  rw [UInt8.lt_iff_toNat_lt, UInt8.lt_iff_toNat_lt, lowerByte_toNat, hbound]
  split
  · next h =>
    have hbounds := (isUpper_iff c).1 h
    omega
  · rfl

theorem lowerByte_eq_iff {c : UInt8} (hx : Bytes.isLetter x = false) :
    Bytes.lowerByte c = x ↔ c = x := by
  rw [Bytes.isLetter, Bool.or_eq_false_iff, Bool.eq_false_iff, Bool.eq_false_iff, ne_eq, ne_eq,
    isLower_iff, isUpper_iff] at hx
  rw [← UInt8.toNat_inj, ← UInt8.toNat_inj, lowerByte_toNat]
  split
  · next h =>
    have hbounds := (isUpper_iff c).1 h
    omega
  · rfl

/-! ## Lower case character by character -/

theorem isAscii_iff (s : Bytes) : isAscii s = true ↔ ∀ c ∈ s, c < 0x80 := by
  simp [isAscii]

theorem encode_toLower_ascii {c : UInt8} (hc : c < 0x80) :
    Utf8.encode (toLower c.toNat) = [Bytes.lowerByte c] := by
  have hall : ∀ n < 128, Utf8.encode (toLower n) = [Bytes.lowerByte n.toUInt8] := by
    decide_cbv
  have hlt : c.toNat < 128 := hc
  simpa using hall c.toNat hlt

theorem lowerText_eq (s : Bytes) : lowerText s = Utf8.ofRunes ((Utf8.runes s).map toLower) := by
  unfold lowerText
  split
  · next h =>
    have hs := (isAscii_iff s).1 h
    have hlower : s.map (fun c => Utf8.encode (toLower c.toNat)) =
        s.map fun c => [Bytes.lowerByte c] :=
      List.map_congr_left fun c hc => encode_toLower_ascii (hs c hc)
    rw [Utf8.runes_ascii hs, Utf8.ofRunes, List.map_map, List.map_map]
    change _ = (s.map fun c => Utf8.encode (toLower c.toNat)).flatten
    rw [hlower, ← List.flatMap_def]
    exact List.map_eq_flatMap
  · rfl

@[simp] theorem lowerText_nil : lowerText [] = [] := rfl

theorem lowerText_spells {r : Nat} (h : Utf8.Spells s r) (rest : Bytes) :
    lowerText (s ++ rest) = Utf8.encode (toLower r) ++ lowerText rest := by
  simp [lowerText_eq, Utf8.runes, h.scan_append, Utf8.ofRunes]

theorem lowerText_ill {c : UInt8} {rest : Bytes}
    (h : Utf8.decode (c :: rest) = (Utf8.replacement, 1)) :
    lowerText (c :: rest) = Utf8.encode Utf8.replacement ++ lowerText rest := by
  have hself : toLower Utf8.replacement = Utf8.replacement := by decide_cbv
  simp [lowerText_eq, Utf8.runes, Utf8.scan_cons, h, Utf8.ofRunes, hself]

theorem lowerText_append (s more : Bytes) (hx : Utf8.isContinuation x = false) :
    lowerText (s ++ x :: more) = lowerText s ++ lowerText (x :: more) := by
  simp [lowerText_eq, Utf8.runes_append s more hx, Utf8.ofRunes_append]

theorem lowerText_cons_ascii {c : UInt8} (rest : Bytes) (hc : c < 0x80) :
    lowerText (c :: rest) = Bytes.lowerByte c :: lowerText rest := by
  have h := lowerText_spells (.one hc rfl) rest
  rwa [encode_toLower_ascii hc] at h

theorem lowerText_eq_nil_iff : lowerText s = [] ↔ s = [] := by
  refine ⟨fun h => ?_, fun h => h ▸ lowerText_nil⟩
  induction s using Utf8.text_induction with
  | nil => rfl
  | ill c rest hc hbad ih =>
      rw [lowerText_ill hbad] at h
      exact absurd (List.append_eq_nil_iff.1 h).1 (Utf8.encode_ne_nil _)
  | char s r rest hs ih =>
      rw [lowerText_spells hs] at h
      exact absurd (List.append_eq_nil_iff.1 h).1 (Utf8.encode_ne_nil _)

/-! ## ASCII bytes of the lower case -/

/-- The ASCII bytes that are the lower case of a code point that is not ASCII. -/
def isShared (x : UInt8) : Bool := x == 'i'.toUInt8 || x == 'k'.toUInt8

theorem toLower_high {r : Nat} (hr : 0x80 ≤ r) :
    0x80 ≤ toLower r ∨ isShared (toLower r).toUInt8 := by
  have hruns : ∀ run ∈ lowerRuns, 0x80 ≤ run.last →
      0x80 ≤ (run.first : Int) + run.shift ∨
        run.first = run.last ∧ isShared ((run.first : Int) + run.shift).toNat.toUInt8 := by
    decide +kernel
  unfold toLower shiftCase
  rw [if_neg (by omega)]
  split
  · next run hfind =>
    have hcovers := List.find?_some hfind
    simp only [CaseRun.covers, Bool.and_eq_true, decide_eq_true_eq] at hcovers
    obtain hhigh | ⟨hsingle, hshared⟩ := hruns run (List.mem_of_find?_eq_some hfind) (by omega)
    · left
      simp only [Int.ofNat_eq_natCast]
      omega
    · right
      have hr : r = run.first := by omega
      rw [hr]
      exact hshared
  · exact .inl hr

theorem not_mem_encode_toLower {r : Nat} (hr : 0x80 ≤ r) (hx : x < 0x80)
    (hshared : isShared x = false) : x ∉ Utf8.encode (toLower r) := by
  intro hmem
  by_cases hlow : toLower r < 0x80
  · obtain hhigh | h := toLower_high hr
    · omega
    · rw [Utf8.encode_eq, if_pos hlow, List.mem_singleton] at hmem
      rw [hmem, h] at hshared
      exact absurd hshared (by decide)
  · exact Utf8.not_ascii_of_mem_encode (Nat.not_lt.1 hlow) hmem hx

private theorem split_of_not_mem {e t a b : Bytes} (hx : x ∉ e) (h : e ++ t = a ++ x :: b) :
    ∃ a', a = e ++ a' ∧ t = a' ++ x :: b := by
  obtain ⟨a', ha, ht⟩ | ⟨c', he, hb⟩ := List.append_eq_append_iff.1 h
  · exact ⟨a', ha, ht⟩
  · cases c' with
    | nil => exact ⟨[], by simpa using he.symm, by simpa using hb.symm⟩
    | cons d c' =>
        rw [List.cons_append, List.cons.injEq] at hb
        exact absurd (by simp [he, hb.1]) hx

/-- An ASCII byte of the lower case, shared ones apart, comes from an ASCII byte of the text, and
what stands before and after it from what stands there in the text. -/
theorem exists_of_lowerText_eq {a b : Bytes} (hx : x < 0x80) (hshared : isShared x = false)
    (h : lowerText s = a ++ x :: b) :
    ∃ p c q, s = p ++ c :: q ∧ c < 0x80 ∧ Bytes.lowerByte c = x ∧ lowerText p = a ∧
      lowerText q = b := by
  induction s using Utf8.text_induction generalizing a with
  | nil => simp at h
  | ill c rest hc hbad ih =>
      rw [lowerText_ill hbad] at h
      have hx' : x ∉ Utf8.encode Utf8.replacement :=
        fun hmem => Utf8.not_ascii_of_mem_encode (by decide) hmem hx
      obtain ⟨a', rfl, hrest⟩ := split_of_not_mem hx' h
      obtain ⟨p, d, q, rfl, hd, hlower, rfl, hq⟩ := ih hrest
      have hbad' : Utf8.decode (c :: p) = (Utf8.replacement, 1) := by
        rw [← Utf8.decode_append c p q (Utf8.isContinuation_ascii hd)]
        exact hbad
      exact ⟨c :: p, d, q, rfl, hd, hlower, lowerText_ill hbad', hq⟩
  | char s r rest hs ih =>
      by_cases hr : r < 0x80
      · obtain ⟨c, hc, rfl⟩ := hs.exists_ascii hr
        rw [List.singleton_append, lowerText_cons_ascii rest hc] at h
        cases a with
        | nil =>
            rw [List.nil_append, List.cons.injEq] at h
            exact ⟨[], c, rest, rfl, hc, h.1, rfl, h.2⟩
        | cons d a' =>
            rw [List.cons_append, List.cons.injEq] at h
            obtain ⟨p, e, q, rfl, he, hlower, rfl, hq⟩ := ih h.2
            exact ⟨c :: p, e, q, rfl, he, hlower, by rw [lowerText_cons_ascii p hc, h.1], hq⟩
      · rw [lowerText_spells hs] at h
        have hx' := not_mem_encode_toLower (Nat.not_lt.1 hr) hx hshared
        obtain ⟨a', rfl, hrest⟩ := split_of_not_mem hx' h
        obtain ⟨p, d, q, rfl, hd, hlower, rfl, hq⟩ := ih hrest
        exact ⟨s ++ p, d, q, by simp, hd, hlower, lowerText_spells hs p, hq⟩

/-- Where a text reads an ASCII word, shared bytes apart, in the lower case, the text reads it too,
in some case. -/
theorem exists_of_lowerText_eq_append {a n b : Bytes} (hn : n ≠ [])
    (hall : ∀ x ∈ n, x < 0x80 ∧ isShared x = false) (h : lowerText s = a ++ n ++ b) :
    ∃ p m q, s = p ++ m ++ q ∧ isAscii m = true ∧ Bytes.lowerAscii m = n ∧ lowerText p = a ∧
      lowerText q = b := by
  induction n generalizing s a with
  | nil => exact absurd rfl hn
  | cons x n ih =>
      obtain ⟨hx, hn'⟩ := List.forall_mem_cons.1 hall
      rw [List.append_assoc] at h
      obtain ⟨p, c, q, rfl, hc, rfl, rfl, hq⟩ := exists_of_lowerText_eq hx.1 hx.2 h
      cases n with
      | nil => exact ⟨p, [c], q, by simp, by simpa [isAscii] using hc, rfl, rfl, by simpa using hq⟩
      | cons y n =>
          have hrest : lowerText q = [] ++ (y :: n) ++ b := by simpa using hq
          obtain ⟨p', m, q', rfl, hm, hlower, hp', hq'⟩ := ih (by simp) hn' hrest
          rw [lowerText_eq_nil_iff] at hp'
          subst hp'
          refine ⟨p, c :: m, q', by simp, ?_, ?_, rfl, hq'⟩
          · simpa [isAscii, hc] using hm
          · simpa [Bytes.lowerAscii] using hlower

theorem lowerText_append_of_isAscii {m : Bytes} (hm : isAscii m = true) (hne : m ≠ [])
    (p q : Bytes) :
    lowerText (p ++ m ++ q) = lowerText p ++ Bytes.lowerAscii m ++ lowerText q := by
  have hall := (isAscii_iff m).1 hm
  have hfront : lowerText (m ++ q) = Bytes.lowerAscii m ++ lowerText q := by
    clear hm hne
    induction m with
    | nil => rfl
    | cons c m ih =>
        obtain ⟨hc, hm⟩ := List.forall_mem_cons.1 hall
        rw [List.cons_append, lowerText_cons_ascii _ hc, ih hm]
        rfl
  obtain ⟨c, m, rfl⟩ := List.exists_cons_of_ne_nil hne
  have hc := Utf8.isContinuation_ascii (hall c (by simp))
  rw [List.append_assoc, List.cons_append, lowerText_append p _ hc, ← List.cons_append, hfront,
    List.append_assoc]

theorem isAscii_lowerAscii (m : Bytes) : isAscii (Bytes.lowerAscii m) = isAscii m := by
  simp [isAscii, Bytes.lowerAscii, lowerByte_lt_iff, Function.comp_def]

/-! ## Joined texts -/

theorem lowerText_append_ascii (s : Bytes) {r : Bytes} (h : isAscii r = true) :
    lowerText (s ++ r) = lowerText s ++ Bytes.lowerAscii r := by
  have hr := (isAscii_iff r).1 h
  by_cases hs : isAscii s = true
  · have hboth : isAscii (s ++ r) = true := by
      simpa [isAscii, List.all_append] using And.intro hs h
    simp [lowerText, hs, hboth, Bytes.lowerAscii]
  · have hboth : isAscii (s ++ r) = false := by
      simp only [isAscii, List.all_append, Bool.and_eq_false_iff]
      exact Or.inl (by simpa [isAscii] using hs)
    cases r with
    | nil => simp [Bytes.lowerAscii]
    | cons c r =>
        have hc := Utf8.isContinuation_ascii (hr c (by simp))
        have hlower : (c :: r).map (fun c => Utf8.encode (toLower c.toNat)) =
            (c :: r).map fun c => [Bytes.lowerByte c] :=
          List.map_congr_left fun d hd => encode_toLower_ascii (hr d hd)
        have hright : Utf8.ofRunes ((Utf8.runes (c :: r)).map toLower) =
            Bytes.lowerAscii (c :: r) := by
          rw [Utf8.runes_ascii hr, Utf8.ofRunes, List.map_map, List.map_map]
          change ((c :: r).map fun c => Utf8.encode (toLower c.toNat)).flatten = _
          rw [hlower, ← List.flatMap_def]
          exact List.map_eq_flatMap.symm
        have hs' : isAscii s = false := by simpa using hs
        simp only [lowerText, hs', hboth, Utf8.runes_append s r hc, List.map_append,
          Utf8.ofRunes_append, hright]
        rfl

theorem lowerText_append_ff (s : Bytes) :
    ∃ front, lowerText (s ++ [0xFF]) = front ++ [0xBD] := by
  have hboth : isAscii (s ++ [0xFF]) = false := by
    simp [isAscii, List.all_append]
  have hlast : Utf8.ofRunes ((Utf8.runes [0xFF]).map toLower) = [0xEF, 0xBF] ++ [0xBD] := by
    decide_cbv
  refine ⟨Utf8.ofRunes ((Utf8.runes s).map toLower) ++ [0xEF, 0xBF], ?_⟩
  rw [lowerText, hboth, Utf8.runes_append s [] (by decide), List.map_append, Utf8.ofRunes_append,
    hlast, List.append_assoc]
  rfl

end TagLoom.Unicode

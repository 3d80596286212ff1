import TagLoom.Proofs.Template.Attributes

/-!
# Ends by offset

The searches for the ends of names, gaps, literals, brace groups, values and tags, from offset to
offset of the whole text.  Every byte is looked up where the loop has tested that there is one, and a
look-up beside the text has no result; neither has a search that takes more rounds than it was given.
From an offset in the text every search has a result, which is that of the search along the text.
-/

namespace TagLoom.Template

/-! ## Look-ups -/

/-- The part of a list between two offsets, when they lie in it in this order. -/
def slice? {α : Type} (s : List α) (lo hi : Nat) : Option (List α) :=
  if lo ≤ hi ∧ hi ≤ s.length then some ((s.drop lo).take (hi - lo)) else none

def suffix? {α : Type} (s : List α) (o : Nat) : Option (List α) := slice? s o s.length

/-- A text stands at an offset of a source, up to the end of the source. -/
structure Stands (source : Bytes) (o : Nat) (s : Bytes) : Prop where
  le : o ≤ source.length
  drop : source.drop o = s

namespace Stands

variable {source s : Bytes} {o n a b : Nat}

theorem of_le (h : o ≤ source.length) : Stands source o (source.drop o) := ⟨h, rfl⟩

theorem length (h : Stands source o s) : o + s.length = source.length := by
  have hle := h.le
  rw [← h.drop, List.length_drop]
  omega

theorem shift (h : Stands source o s) (hn : n ≤ s.length) : Stands source (o + n) (s.drop n) := by
  have hlen := h.length
  constructor
  · omega
  · rw [← h.drop, List.drop_drop]

theorem get (h : Stands source o s) (n : Nat) : source[o + n]? = s[n]? := by
  rw [← h.drop, List.getElem?_drop]

theorem head (h : Stands source o s) : source[o]? = s.head? := by
  rw [← h.drop, List.head?_drop]

theorem slice (h : Stands source o s) (hab : a ≤ b) (hb : b ≤ s.length) :
    slice? source (o + a) (o + b) = some ((s.drop a).take (b - a)) := by
  have hlen := h.length
  have hwidth : o + b - (o + a) = b - a := by omega
  rw [slice?, if_pos (by omega), ← List.drop_drop, h.drop, hwidth]

theorem slice_take (h : Stands source o s) (hn : n ≤ s.length) :
    slice? source o (o + n) = some (s.take n) := h.slice (Nat.zero_le n) hn

theorem suffix (h : Stands source o s) : suffix? source o = some s := by
  have hall := h.slice_take (Nat.le_refl s.length)
  rwa [h.length, List.take_length] at hall

theorem tail {c : UInt8} {rest : Bytes} (h : Stands source o (c :: rest)) :
    Stands source (o + 1) rest := h.shift (Nat.le_add_left 1 rest.length)

theorem lt {c : UInt8} {rest : Bytes} (h : Stands source o (c :: rest)) : o < source.length := by
  have hlen := h.length
  rw [List.length_cons] at hlen
  omega

end Stands

/-! ## Searches -/

section Searches

variable (source : Bytes)

/-- The first offset from one on where no byte of a kind stands. -/
def spanFrom? (kind : UInt8 → Bool) : Nat → Nat → Option Nat
  | 0, _ => none
  | rounds + 1, i =>
      if i < source.length then do
        let c ← source[i]?
        if kind c then spanFrom? kind rounds (i + 1) else some i
      else some i

def skipTextFrom? (quote : UInt8) (sameLine : Bool) : Nat → Nat → Option (Nat × Bool)
  | 0, _ => none
  | rounds + 1, i =>
      if i < source.length then do
        let c ← source[i]?
        if c == '\\'.toUInt8 && quote != 0x60 then skipTextFrom? quote sameLine rounds (i + 2)
        else if c == quote then some (i, true)
        else if c == '\n'.toUInt8 && sameLine then some (i, false)
        else skipTextFrom? quote sameLine rounds (i + 1)
      else some (source.length, false)

/-- Where the literal ends whose opening quote stands at an offset, or where the search gave up. -/
def textEnd? (sameLine : Bool) (o : Nat) : Option (Nat × Bool) := do
  let quote ← source[o]?
  skipTextFrom? source quote sameLine (source.length + 1) (o + 1)

def bracesFrom? (sameLine : Bool) : Nat → Int → Nat → Option (Nat × Bool)
  | 0, _, _ => none
  | rounds + 1, depth, i =>
      if i < source.length then do
        let c ← source[i]?
        if c == '\x7b'.toUInt8 then bracesFrom? sameLine rounds (depth + 1) (i + 1)
        else if c == '\x7d'.toUInt8 then
          if depth - 1 = 0 then some (i, true) else bracesFrom? sameLine rounds (depth - 1) (i + 1)
        else if c == '\n'.toUInt8 && sameLine then some (i, false)
        else if Scan.isQuote c then
          let (stop, closed) ← textEnd? source sameLine i
          if closed then bracesFrom? sameLine rounds depth (stop + 1) else some (stop, false)
        else bracesFrom? sameLine rounds depth (i + 1)
      else some (source.length, false)

def tagEndFrom? : Nat → Nat → Option Nat
  | 0, _ => none
  | rounds + 1, i =>
      if i < source.length then do
        let c ← source[i]?
        if c == '>'.toUInt8 then some (i + 1)
        else if c == '"'.toUInt8 || c == '\''.toUInt8 then
          let rest ← suffix? source (i + 1)
          match rest.findIdx? (· == c) with
          | none => some source.length
          | some j => tagEndFrom? rounds (i + j + 2)
        else if c == '\x7b'.toUInt8 then
          let (stop, closed) ← bracesFrom? source false (source.length + 1) 0 i
          if closed then tagEndFrom? rounds (stop + 1) else some source.length
        else tagEndFrom? rounds (i + 1)
      else some source.length

def quotedFrom? (quote : UInt8) : Nat → Nat → Option (Option Nat)
  | 0, _ => none
  | rounds + 1, i =>
      if i < source.length then do
        let c ← source[i]?
        if c == '\\'.toUInt8 then
          if i + 1 < source.length then
            let next ← source[i + 1]?
            quotedFrom? quote rounds (if next == '\x7b'.toUInt8 then i + 2 else i + 1)
          else quotedFrom? quote rounds (i + 1)
        else if c == '\x7b'.toUInt8 then
          let (stop, closed) ← bracesFrom? source false (source.length + 1) 0 i
          if closed then quotedFrom? quote rounds (stop + 1) else some none
        else if c == quote then some (some i)
        else quotedFrom? quote rounds (i + 1)
      else some none

/-- Whether a text in lower case stands at an offset in any letter case. -/
def standsFold? (needle : Bytes) (o : Nat) : Option Bool :=
  if source.length < o + needle.length then some false
  else (slice? source o (o + needle.length)).map fun part => Bytes.lowerAscii part == needle

def indexFoldFrom? (needle : Bytes) : Nat → Nat → Option Nat
  | 0, _ => none
  | rounds + 1, i =>
      if i + needle.length ≤ source.length then do
        if ← standsFold? source needle i then some i else indexFoldFrom? needle rounds (i + 1)
      else some source.length

variable (o : Nat)

def gapEnd? : Option Nat := spanFrom? source Name.isSpace (source.length + 1) o

def nameEnd? : Option Nat :=
  if source.length ≤ o then some o
  else do
    let c ← source[o]?
    if Name.isStart c then spanFrom? source Name.isPart (source.length + 1) (o + 1) else some o

def tagEnd? : Option Nat := tagEndFrom? source (source.length + 1) o

/-- Where the brace group ends that stands at an offset, or where the search gave up. -/
def bracesEnd? (sameLine : Bool) : Option (Nat × Bool) :=
  bracesFrom? source sameLine (source.length + 1) 0 o

/-- Where a quoted value ends whose opening quote stands at the offset, if it does. -/
def quoteEnd? : Option (Option Nat) := do
  let quote ← source[o]?
  quotedFrom? source quote (source.length + 1) (o + 1)

def indexFoldAt? (needle : Bytes) : Option Nat := indexFoldFrom? source needle (source.length + 1) o

end Searches

/-! ## What the searches find -/

namespace Stands

variable {source s rest : Bytes} {o rounds : Nat} {c : UInt8}

theorem lt_rounds (h : Stands source o s) : s.length < source.length + 1 := by
  have hlen := h.length
  omega

theorem exists_round (hr : s.length < rounds) : ∃ n, rounds = n + 1 :=
  Nat.exists_eq_add_one_of_ne_zero (Nat.ne_zero_of_lt hr)

theorem exists_round_cons (hr : (c :: rest).length < rounds) :
    ∃ n, rounds = n + 1 ∧ ∀ k, (rest.drop k).length < n := by
  obtain ⟨n, rfl⟩ := exists_round hr
  refine ⟨n, rfl, fun k => ?_⟩
  simp only [List.length_cons, List.length_drop] at hr ⊢
  omega

theorem span (kind : UInt8 → Bool) (h : Stands source o s) (hr : s.length < rounds) :
    spanFrom? source kind rounds o = some (o + (s.takeWhile kind).length) := by
  induction s generalizing o rounds with
  | nil =>
      obtain ⟨rounds, rfl⟩ := exists_round hr
      have hlen : o = source.length := h.length
      rw [spanFrom?, if_neg (by omega)]
      rfl
  | cons c rest ih =>
      obtain ⟨rounds, rfl⟩ := exists_round hr
      rw [spanFrom?, if_pos h.lt, h.head]
      simp only [List.head?_cons, Option.bind_eq_bind, Option.bind_some]
      cases hc : kind c with
      | false => simp [hc]
      | true =>
          rw [if_pos rfl, ih h.tail (by simpa using hr), List.takeWhile_cons_of_pos hc,
            List.length_cons, Nat.add_assoc, Nat.add_comm 1]

/-! ### Literals -/

section Literals

variable {quote : UInt8} {sameLine : Bool}

theorem skipTextFrom?_end (h : source.length ≤ o) :
    skipTextFrom? source quote sameLine (rounds + 1) o = some (source.length, false) := by
  rw [skipTextFrom?, if_neg (by omega)]

theorem skipTextFrom?_cons (h : Stands source o (c :: rest)) :
    skipTextFrom? source quote sameLine (rounds + 1) o =
      if c == '\\'.toUInt8 && quote != 0x60 then skipTextFrom? source quote sameLine rounds (o + 2)
      else if c == quote then some (o, true)
      else if c == '\n'.toUInt8 && sameLine then some (o, false)
      else skipTextFrom? source quote sameLine rounds (o + 1) := by
  rw [skipTextFrom?, if_pos h.lt, h.head]
  rfl

theorem skipText (h : Stands source o s) (hr : s.length < rounds) :
    skipTextFrom? source quote sameLine rounds o =
      some (o + (Scan.skipText quote sameLine s).1, (Scan.skipText quote sameLine s).2) := by
  fun_induction Scan.skipText quote sameLine s generalizing o rounds with
  | case1 =>
      obtain ⟨rounds, rfl⟩ := exists_round hr
      have hend : o = source.length := h.length
      rw [skipTextFrom?_end (Nat.le_of_eq hend.symm), ← hend]
      rfl
  | case2 c hback =>
      obtain ⟨rounds, rfl⟩ := Nat.exists_eq_add_of_lt hr
      have hend : o + 1 = source.length := h.length
      rw [skipTextFrom?_cons h, if_pos hback, List.length_singleton, Nat.add_comm 1,
        skipTextFrom?_end (by omega), ← hend]
  | case3 c hback d rest n closed hn ih =>
      obtain ⟨rounds, rfl⟩ := exists_round hr
      simp only [List.length_cons] at hr
      rw [skipTextFrom?_cons h, if_pos hback, ih h.tail.tail (by omega), hn]
      simp only [Nat.add_assoc, Nat.add_comm 2]
  | case4 c rest hback hquote =>
      obtain ⟨rounds, rfl⟩ := exists_round hr
      rw [skipTextFrom?_cons h, if_neg hback, if_pos hquote]
      rfl
  | case5 c rest hback hquote hline =>
      obtain ⟨rounds, rfl⟩ := exists_round hr
      rw [skipTextFrom?_cons h, if_neg hback, if_neg hquote, if_pos hline]
      rfl
  | case6 c rest hback hquote hline n closed hn ih =>
      obtain ⟨rounds, rfl⟩ := exists_round hr
      rw [skipTextFrom?_cons h, if_neg hback, if_neg hquote, if_neg hline,
        ih h.tail (Nat.succ_lt_succ_iff.1 hr), hn]
      simp only [Nat.add_assoc, Nat.add_comm 1]

theorem textEnd (h : Stands source o (c :: rest)) (sameLine : Bool) :
    textEnd? source sameLine o =
      some (o + 1 + (Scan.skipText c sameLine rest).1, (Scan.skipText c sameLine rest).2) := by
  rw [textEnd?, h.head]
  exact h.tail.skipText h.tail.lt_rounds

end Literals

/-! ### Brace groups -/

section Braces

variable {sameLine : Bool}

theorem bracesFrom?_cons {depth : Int} (h : Stands source o (c :: rest)) :
    bracesFrom? source sameLine (rounds + 1) depth o =
      if c == '\x7b'.toUInt8 then bracesFrom? source sameLine rounds (depth + 1) (o + 1)
      else if c == '\x7d'.toUInt8 then
        if depth - 1 = 0 then some (o, true)
        else bracesFrom? source sameLine rounds (depth - 1) (o + 1)
      else if c == '\n'.toUInt8 && sameLine then some (o, false)
      else if Scan.isQuote c then
        (textEnd? source sameLine o).bind fun (stop, closed) =>
          if closed then bracesFrom? source sameLine rounds depth (stop + 1) else some (stop, false)
      else bracesFrom? source sameLine rounds depth (o + 1) := by
  rw [bracesFrom?, if_pos h.lt, h.head]
  rfl

theorem closeBraces {depth : Nat} (h : Stands source o s) (hdepth : 1 ≤ depth)
    (hr : s.length < rounds) :
    bracesFrom? source sameLine rounds depth o = some (o + (Scan.closeBraces sameLine depth s).1,
      (Scan.closeBraces sameLine depth s).2) := by
  fun_induction Scan.closeBraces sameLine depth s generalizing o rounds with
  | case1 depth =>
      obtain ⟨rounds, rfl⟩ := exists_round hr
      have hend : o = source.length := h.length
      rw [bracesFrom?, if_neg (by omega), ← hend]
      rfl
  | case2 depth c rest hc n closed hn ih =>
      obtain ⟨rounds, rfl⟩ := exists_round hr
      have hnext := ih h.tail (Nat.le_add_left 1 depth) (Nat.succ_lt_succ_iff.1 hr)
      rw [bracesFrom?_cons h, if_pos hc, ← Int.natCast_succ, hnext, hn]
      simp only [Nat.add_assoc, Nat.add_comm 1]
  | case3 depth c rest hc hclose hone =>
      obtain ⟨rounds, rfl⟩ := exists_round hr
      rw [bracesFrom?_cons h, if_neg hc, if_pos hclose, if_pos (by omega)]
      rfl
  | case4 depth c rest hc hclose hone n closed hn ih =>
      obtain ⟨rounds, rfl⟩ := exists_round hr
      have hnext := ih h.tail (by omega) (Nat.succ_lt_succ_iff.1 hr)
      have hcast : ((depth - 1 : Nat) : Int) = depth - 1 := by omega
      rw [hcast] at hnext
      rw [bracesFrom?_cons h, if_neg hc, if_pos hclose, if_neg (by omega), hnext, hn]
      simp only [Nat.add_assoc, Nat.add_comm 1]
  | case5 depth c rest hc hclose hline =>
      obtain ⟨rounds, rfl⟩ := exists_round hr
      rw [bracesFrom?_cons h, if_neg hc, if_neg hclose, if_pos hline]
      rfl
  | case6 depth c rest hc hclose hline hquote n m closed hn htext ih =>
      obtain ⟨rounds, rfl⟩ := exists_round hr
      have hlt := Scan.skipText_lt (congrArg Prod.snd htext)
      rw [htext] at hlt
      have hrounds : (rest.drop (n + 1)).length < rounds := by
        simp only [List.length_drop, List.length_cons] at hr ⊢
        omega
      have hnext := ih (h.tail.shift hlt) hdepth hrounds
      rw [bracesFrom?_cons h, if_neg hc, if_neg hclose, if_neg hline, if_pos hquote, h.textEnd, htext,
        Option.bind_some]
      dsimp only
      rw [if_pos rfl, Nat.add_assoc, hnext, hn]
      congr 2
      omega
  | case7 depth c rest hc hclose hline hquote n htext hn hopen =>
      obtain ⟨rounds, rfl⟩ := exists_round hr
      obtain rfl := Bool.eq_false_iff.2 hopen
      rw [bracesFrom?_cons h, if_neg hc, if_neg hclose, if_neg hline, if_pos hquote, h.textEnd, hn,
        Option.bind_some, Nat.add_assoc, Nat.add_comm 1]
      rfl
  | case8 depth c rest hc hclose hline hquote n closed hn ih =>
      obtain ⟨rounds, rfl⟩ := exists_round hr
      rw [bracesFrom?_cons h, if_neg hc, if_neg hclose, if_neg hline, if_neg hquote,
        ih h.tail hdepth (Nat.succ_lt_succ_iff.1 hr), hn]
      simp only [Nat.add_assoc, Nat.add_comm 1]

theorem bracesEnd (h : Stands source o (c :: rest)) (hc : (c == '\x7b'.toUInt8) = true)
    (sameLine : Bool) : bracesEnd? source o sameLine =
      some (o + (Scan.braces sameLine (c :: rest)).1, (Scan.braces sameLine (c :: rest)).2) := by
  have hlen := h.lt_rounds
  rw [List.length_cons] at hlen
  have hrest : bracesFrom? source sameLine source.length (0 + 1) (o + 1) =
      some (o + 1 + (Scan.closeBraces sameLine 1 rest).1, (Scan.closeBraces sameLine 1 rest).2) :=
    h.tail.closeBraces (Nat.le_refl 1) (Nat.succ_lt_succ_iff.1 hlen)
  rw [bracesEnd?, bracesFrom?_cons h, if_pos hc, hrest, Scan.braces_cons hc, Nat.add_assoc,
    Nat.add_comm 1]

theorem afterBraces {n : Nat} (h : Stands source o (c :: rest))
    (hn : Scan.closeBraces sameLine 1 rest = (n, true)) :
    Stands source (o + (n + 1) + 1) (rest.drop (n + 1)) := by
  have hlt := Scan.closeBraces_lt (congrArg Prod.snd hn)
  rw [hn] at hlt
  exact h.shift (n := n + 2) (Nat.succ_le_succ hlt)

end Braces

/-! ### Tags and values -/

theorem tagEndFrom?_cons (h : Stands source o (c :: rest)) :
    tagEndFrom? source (rounds + 1) o =
      if c == '>'.toUInt8 then some (o + 1)
      else if c == '"'.toUInt8 || c == '\''.toUInt8 then
        match rest.findIdx? (· == c) with
        | none => some source.length
        | some j => tagEndFrom? source rounds (o + j + 2)
      else if c == '\x7b'.toUInt8 then
        (bracesEnd? source o false).bind fun (stop, closed) =>
          if closed then tagEndFrom? source rounds (stop + 1) else some source.length
      else tagEndFrom? source rounds (o + 1) := by
  rw [tagEndFrom?, if_pos h.lt, h.head, h.tail.suffix]
  rfl

theorem tagEnd_searched (h : Stands source o s) (hr : s.length < rounds) :
    tagEndFrom? source rounds o = some (o + Scan.tagEnd s) := by
  fun_induction Scan.tagEnd s generalizing o rounds with
  | case1 =>
      obtain ⟨rounds, rfl⟩ := exists_round hr
      have hend : o = source.length := h.length
      rw [tagEndFrom?, if_neg (by omega), ← hend]
      rfl
  | case2 c rest hc =>
      obtain ⟨rounds, rfl⟩ := exists_round hr
      rw [tagEndFrom?_cons h, if_pos hc]
  | case3 c rest hc hquote hfind =>
      obtain ⟨rounds, rfl⟩ := exists_round hr
      rw [tagEndFrom?_cons h, if_neg hc, if_pos hquote, hfind, ← h.length]
      rfl
  | case4 c rest hc hquote j hfind ih =>
      obtain ⟨rounds, rfl, hfewer⟩ := exists_round_cons hr
      have hj : j < rest.length := (List.findIdx?_eq_some_iff_getElem.1 hfind).1
      have hnext := ih (h.shift (n := j + 2) (Nat.succ_le_succ hj)) (hfewer (j + 1))
      rw [tagEndFrom?_cons h, if_neg hc, if_pos hquote, hfind]
      dsimp only
      rw [Nat.add_assoc, hnext]
      congr 1
      omega
  | case5 c rest hc hquote hbrace n hn =>
      obtain ⟨rounds, rfl⟩ := exists_round hr
      rw [tagEndFrom?_cons h, if_neg hc, if_neg hquote, if_pos hbrace, h.bracesEnd hbrace,
        Scan.braces_cons hbrace, hn, ← h.length]
      rfl
  | case6 c rest hc hquote hbrace j hn ih =>
      obtain ⟨rounds, rfl, hfewer⟩ := exists_round_cons hr
      have hnext := ih (h.afterBraces hn) (hfewer (j + 1))
      rw [tagEndFrom?_cons h, if_neg hc, if_neg hquote, if_pos hbrace, h.bracesEnd hbrace,
        Scan.braces_cons hbrace, hn, Option.bind_some]
      dsimp only
      rw [if_pos rfl, hnext]
      congr 1
      omega
  | case7 c rest hc hquote hbrace ih =>
      obtain ⟨rounds, rfl, hfewer⟩ := exists_round_cons hr
      rw [tagEndFrom?_cons h, if_neg hc, if_neg hquote, if_neg hbrace, ih h.tail (hfewer 0),
        Nat.add_assoc, Nat.add_comm 1]

theorem quotedFrom?_cons {quote : UInt8} (h : Stands source o (c :: rest)) :
    quotedFrom? source quote (rounds + 1) o =
      if c == '\\'.toUInt8 then
        quotedFrom? source quote rounds (if rest.head? == some '\x7b'.toUInt8 then o + 2 else o + 1)
      else if c == '\x7b'.toUInt8 then
        (bracesEnd? source o false).bind fun (stop, closed) =>
          if closed then quotedFrom? source quote rounds (stop + 1) else some none
      else if c == quote then some (some o)
      else quotedFrom? source quote rounds (o + 1) := by
  have hpeek : source[o + 1]? = rest.head? := h.tail.head
  rw [quotedFrom?, if_pos h.lt, h.head]
  simp only [List.head?_cons, Option.bind_eq_bind, Option.bind_some, hpeek]
  cases rest with
  | nil =>
      have hend : o + 1 = source.length := h.tail.length
      have hnone : ¬ o + 1 < source.length := by omega
      simp only [hnone, if_false]
      rfl
  | cons d rest =>
      simp only [h.tail.lt, if_true]
      rfl

theorem quoted_searched {quote : UInt8} (h : Stands source o s) (hr : s.length < rounds) :
    quotedFrom? source quote rounds o = some ((Scan.quoted? quote s).map (o + ·)) := by
  fun_induction Scan.quoted? quote s generalizing o rounds with
  | case1 =>
      obtain ⟨rounds, rfl⟩ := exists_round hr
      have hend : o = source.length := h.length
      rw [quotedFrom?, if_neg (by omega)]
      rfl
  | case2 c rest hback hbrace ih =>
      obtain ⟨rounds, rfl, hfewer⟩ := exists_round_cons hr
      have hone : 1 ≤ rest.length := by
        cases rest with
        | nil => simp at hbrace
        | cons d rest => simp
      have hnext := ih (h.shift (n := 2) (Nat.succ_le_succ hone)) (hfewer 1)
      rw [quotedFrom?_cons h, if_pos hback, if_pos hbrace, hnext, Option.map_map]
      simp only [Function.comp_def, Nat.add_assoc, Nat.add_comm 2]
  | case3 c rest hback hbrace ih =>
      obtain ⟨rounds, rfl, hfewer⟩ := exists_round_cons hr
      rw [quotedFrom?_cons h, if_pos hback, if_neg hbrace, ih h.tail (hfewer 0), Option.map_map]
      simp only [Function.comp_def, Nat.add_assoc, Nat.add_comm 1]
  | case4 c rest hback hbrace n hn =>
      obtain ⟨rounds, rfl⟩ := exists_round hr
      rw [quotedFrom?_cons h, if_neg hback, if_pos hbrace, h.bracesEnd hbrace,
        Scan.braces_cons hbrace, hn]
      rfl
  | case5 c rest hback hbrace j hn ih =>
      obtain ⟨rounds, rfl, hfewer⟩ := exists_round_cons hr
      have hnext := ih (h.afterBraces hn) (hfewer (j + 1))
      rw [quotedFrom?_cons h, if_neg hback, if_pos hbrace, h.bracesEnd hbrace,
        Scan.braces_cons hbrace, hn, Option.bind_some]
      dsimp only
      rw [if_pos rfl, hnext, Option.map_map]
      simp only [Function.comp_def, Nat.add_assoc, Nat.add_comm, Nat.add_left_comm]
  | case6 c rest hback hbrace hquote =>
      obtain ⟨rounds, rfl⟩ := exists_round hr
      rw [quotedFrom?_cons h, if_neg hback, if_neg hbrace, if_pos hquote]
      rfl
  | case7 c rest hback hbrace hquote ih =>
      obtain ⟨rounds, rfl, hfewer⟩ := exists_round_cons hr
      rw [quotedFrom?_cons h, if_neg hback, if_neg hbrace, if_neg hquote, ih h.tail (hfewer 0),
        Option.map_map]
      simp only [Function.comp_def, Nat.add_assoc, Nat.add_comm 1]

/-! ### Texts in any letter case -/

theorem startsWith_lowerAscii_take {needle : Bytes} (hle : needle.length ≤ s.length) :
    Bytes.startsWith (Bytes.lowerAscii (s.take needle.length)) needle =
      (Bytes.lowerAscii (s.take needle.length) == needle) := by
  have hlen : (Bytes.lowerAscii (s.take needle.length)).length = needle.length := by
    rw [Bytes.lowerAscii, List.length_map, List.length_take_of_le hle]
  rw [Bool.eq_iff_iff, Bytes.startsWith, List.isPrefixOf_iff_prefix, beq_iff_eq]
  exact ⟨fun h => (h.eq_of_length hlen.symm).symm, fun h => h.symm ▸ List.prefix_rfl⟩

theorem indexFold_of_lt {needle : Bytes} (hlt : s.length < needle.length) :
    indexFold needle s = s.length := by
  induction s with
  | nil => rfl
  | cons c rest ih =>
      have hshort : Bytes.startsWith (Bytes.lowerAscii ((c :: rest).take needle.length)) needle =
          false := by
        refine Bool.eq_false_iff.2 fun h => ?_
        have hle := (List.isPrefixOf_iff_prefix.1 h).length_le
        rw [Bytes.lowerAscii, List.length_map, List.length_take] at hle
        omega
      rw [indexFold, hshort, if_neg Bool.false_ne_true, ih (Nat.lt_of_succ_lt hlt)]
      rfl

theorem indexFold_searched {needle : Bytes} (hneedle : needle ≠ []) (h : Stands source o s)
    (hr : s.length < rounds) :
    indexFoldFrom? source needle rounds o = some (o + indexFold needle s) := by
  induction s generalizing o rounds with
  | nil =>
      obtain ⟨rounds, rfl⟩ := exists_round hr
      have hend : o = source.length := h.length
      have hpos := List.length_pos_iff.2 hneedle
      rw [indexFoldFrom?, if_neg (by omega), ← hend]
      rfl
  | cons c rest ih =>
      obtain ⟨rounds, rfl, hfewer⟩ := exists_round_cons hr
      have hlen := h.length
      by_cases hle : needle.length ≤ (c :: rest).length
      · have hstands : standsFold? source needle o = some (Bytes.startsWith
            (Bytes.lowerAscii ((c :: rest).take needle.length)) needle) := by
          rw [standsFold?, if_neg (by omega), h.slice_take hle, startsWith_lowerAscii_take hle]
          rfl
        rw [indexFoldFrom?, if_pos (by omega), hstands, indexFold, ih h.tail (hfewer 0),
          Nat.add_assoc, Nat.add_comm 1]
        simp only [Option.bind_eq_bind, Option.bind_some]
        split <;> rfl
      · rw [indexFoldFrom?, if_neg (by omega), indexFold_of_lt (Nat.not_le.1 hle), hlen]

/-! ### Ends -/

theorem gapEnd (h : Stands source o s) :
    gapEnd? source o = some (o + (s.takeWhile Name.isSpace).length) :=
  h.span Name.isSpace h.lt_rounds

theorem nameEnd (h : Stands source o s) : nameEnd? source o = some (o + (Name.leading s).length) := by
  cases s with
  | nil =>
      have hend : o = source.length := h.length
      rw [nameEnd?, if_pos (by omega)]
      rfl
  | cons c rest =>
      rw [nameEnd?, if_neg (Nat.not_le.2 h.lt), h.head, Name.leading]
      cases hc : Name.isStart c with
      | false => simp [hc]
      | true =>
          have hrest := h.tail.span Name.isPart h.tail.lt_rounds
          simp only [List.head?_cons, Option.bind_eq_bind, Option.bind_some, hc, if_true, hrest,
            List.length_cons, Nat.add_assoc, Nat.add_comm 1]

theorem tagEnd (h : Stands source o s) : tagEnd? source o = some (o + Scan.tagEnd s) :=
  h.tagEnd_searched h.lt_rounds

theorem quoteEnd {q : UInt8} (h : Stands source o (q :: s)) :
    quoteEnd? source o = some ((Scan.quoted? q s).map (o + 1 + ·)) := by
  rw [quoteEnd?, h.head]
  exact h.tail.quoted_searched h.tail.lt_rounds

theorem indexFoldAt {needle : Bytes} (hneedle : needle ≠ []) (h : Stands source o s) :
    indexFoldAt? source o needle = some (o + indexFold needle s) :=
  h.indexFold_searched hneedle h.lt_rounds

theorem skipGap (h : Stands source o s) :
    Stands source (o + (s.takeWhile Name.isSpace).length) (s.dropWhile Name.isSpace) := by
  rw [← drop_takeWhile]
  exact h.shift (List.takeWhile_prefix _).length_le

end Stands

end TagLoom.Template

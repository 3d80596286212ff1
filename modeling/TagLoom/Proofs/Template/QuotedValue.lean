import TagLoom.Proofs.Expr.Words
import TagLoom.Proofs.Template.Extent
import TagLoom.Proofs.Template.Opening
import TagLoom.Proofs.Template.SameLine
import Mathlib.Data.List.Forall2

/-!
# Quoted values

Where a quoted value ends is found by passing the brace groups in it, and what the value is made of
by finding them again.  Both readings pass the same groups, since a group that is closed in the
text is closed in the value, and if the expressions in the groups can be read, the parts of the
value spell it.
-/

namespace TagLoom

namespace Scan

/-! ## The groups in a value -/

/-- A brace group in a value: the offset of its opening brace, and that of the closing brace from
there on. -/
structure Group where
  offset : Nat
  close : Nat
deriving DecidableEq

/-- From an offset of a quoted value on, the closing quote is found some bytes further, and these brace
groups are passed before it. -/
inductive Passes (quote : UInt8) : Nat → Bytes → Nat → List Group → Prop where
  | quote {o : Nat} {rest : Bytes} (hslash : quote ≠ '\\'.toUInt8) (hbrace : quote ≠ '\x7b'.toUInt8) :
      Passes quote o (quote :: rest) 0 []
  | escape {o m : Nat} {rest : Bytes} {groups : List Group} (h : Passes quote (o + 2) rest m groups) :
      Passes quote o ('\\'.toUInt8 :: '\x7b'.toUInt8 :: rest) (m + 2) groups
  | group {o j m : Nat} {rest : Bytes} {groups : List Group}
      (hclose : closeBraces false 1 rest = (j, true))
      (h : Passes quote (o + j + 2) (rest.drop (j + 1)) m groups) :
      Passes quote o ('\x7b'.toUInt8 :: rest) (m + j + 2) (⟨o, j + 1⟩ :: groups)
  | byte {o m : Nat} {c : UInt8} {rest : Bytes} {groups : List Group}
      (hescape : c = '\\'.toUInt8 → rest.head? ≠ some '\x7b'.toUInt8) (hbrace : c ≠ '\x7b'.toUInt8)
      (hquote : c = quote → c = '\\'.toUInt8) (h : Passes quote (o + 1) rest m groups) :
      Passes quote o (c :: rest) (m + 1) groups

variable {quote : UInt8} {s : Bytes} {o m : Nat} {groups : List Group}

theorem passes_of_quoted? (h : quoted? quote s = some m) (o : Nat) :
    ∃ groups, Passes quote o s m groups := by
  fun_induction quoted? quote s generalizing m o with
  | case1 => cases h
  | case2 c rest hc hbrace ih =>
      obtain ⟨n, hn, rfl⟩ := Option.map_eq_some_iff.1 h
      obtain ⟨rest, rfl⟩ := List.head?_eq_some_iff.1 (eq_of_beq hbrace)
      obtain ⟨groups, hgroups⟩ := ih hn (o + 2)
      rw [eq_of_beq hc]
      exact ⟨groups, .escape hgroups⟩
  | case3 c rest hc hbrace ih =>
      obtain ⟨n, hn, rfl⟩ := Option.map_eq_some_iff.1 h
      obtain ⟨groups, hgroups⟩ := ih hn (o + 1)
      obtain rfl := eq_of_beq hc
      exact ⟨groups, .byte (fun _ => by simpa using hbrace) (by decide) (fun _ => rfl) hgroups⟩
  | case4 => cases h
  | case5 c rest hc hbrace j hclose ih =>
      obtain ⟨n, hn, rfl⟩ := Option.map_eq_some_iff.1 h
      obtain ⟨groups, hgroups⟩ := ih hn (o + j + 2)
      rw [eq_of_beq hbrace]
      exact ⟨_, .group hclose hgroups⟩
  | case6 c rest hc hbrace hquote =>
      cases h
      obtain rfl := eq_of_beq hquote
      exact ⟨[], .quote (by simpa using hc) (by simpa using hbrace)⟩
  | case7 c rest hc hbrace hquote ih =>
      obtain ⟨n, hn, rfl⟩ := Option.map_eq_some_iff.1 h
      obtain ⟨groups, hgroups⟩ := ih hn (o + 1)
      exact ⟨groups, .byte (fun h => absurd h (by simpa using hc)) (by simpa using hbrace)
        (fun h => absurd h (by simpa using hquote)) hgroups⟩

theorem Passes.quoted? (h : Passes quote o s m groups) : Scan.quoted? quote s = some m := by
  have hslash : '\x7b'.toUInt8 ≠ '\\'.toUInt8 := by decide
  induction h with
  | quote hslash hbrace => simp [Scan.quoted?, hslash, hbrace]
  | escape _ ih => simp [Scan.quoted?, ih]
  | group hclose _ ih => simp [Scan.quoted?, hslash, hclose, ih, Nat.add_assoc]
  | @byte o m c rest groups hescape hbrace hquote _ ih =>
      rw [Scan.quoted?]
      by_cases hc : c = '\\'.toUInt8
      · simp [hc, hescape hc, ih]
      · have hne : c ≠ quote := fun heq => hc (hquote heq)
        simp [hc, hbrace, hne, ih]

theorem quoted?_eq_some_iff : quoted? quote s = some m ↔ ∃ groups, Passes quote o s m groups :=
  ⟨fun h => passes_of_quoted? h o, fun ⟨_, h⟩ => h.quoted?⟩

/-! ## Groups of a text and of a part of it -/

theorem search_take {sameLine : Bool} {p : Spot} {j k : Nat} (h : search sameLine p s = (j, true))
    (hlt : j < k) : search sameLine p (s.take k) = (j, true) := by
  induction s generalizing p j k with
  | nil => cases h
  | cons c rest ih =>
      cases k with
      | zero => cases hlt
      | succ k =>
          rw [search] at h
          rw [List.take_succ_cons, search]
          split_ifs at h ⊢ with hline hclosed
          · exact h
          · exact h
          · obtain ⟨rfl, hfound⟩ := Prod.mk.inj h
            rw [ih (Prod.ext rfl hfound) (Nat.lt_of_succ_lt_succ hlt)]

theorem closeBraces_take {depth j k : Nat} (h : closeBraces false depth s = (j, true))
    (hlt : j < k) : closeBraces false depth (s.take k) = (j, true) := by
  rw [closeBraces_eq_search] at h ⊢
  exact search_take h hlt

theorem braces_take {n k : Nat} (h : braces false s = (n, true)) (hlt : n < k) :
    braces false (s.take k) = (n, true) :=
  closeBraces_take h hlt

theorem Passes.closed {text : Bytes} (h : Passes quote o s m groups) (hs : text.drop o = s) :
    ∀ g ∈ groups, g.offset + g.close < o + m ∧ braces false (text.drop g.offset) = (g.close, true) := by
  induction h with
  | quote => nofun
  | @escape o m rest groups _ ih =>
      intro g hg
      have hrest : text.drop (o + 2) = rest := by rw [← List.drop_drop, hs]; rfl
      obtain ⟨hlt, hclose⟩ := ih hrest g hg
      exact ⟨by omega, hclose⟩
  | @group o j m rest groups hclose _ ih =>
      have hrest : text.drop (o + j + 2) = rest.drop (j + 1) := by
        rw [Nat.add_assoc, ← List.drop_drop, hs]
        rfl
      refine List.forall_mem_cons.2 ⟨⟨?_, ?_⟩, fun g hg => ?_⟩
      · dsimp only
        omega
      · rw [hs, braces_cons (beq_self_eq_true _), hclose]
      · obtain ⟨hlt, hfound⟩ := ih hrest g hg
        exact ⟨by omega, hfound⟩
  | @byte o m c rest groups _ _ _ _ ih =>
      intro g hg
      have hrest : text.drop (o + 1) = rest := by rw [← List.drop_drop, hs]; rfl
      obtain ⟨hlt, hclose⟩ := ih hrest g hg
      exact ⟨by omega, hclose⟩

theorem Passes.closed_take {text : Bytes} (h : Passes quote 0 text m groups) :
    ∀ g ∈ groups, braces false ((text.take m).drop g.offset) = (g.close, true) := by
  intro g hg
  obtain ⟨hlt, hclose⟩ := h.closed List.drop_zero g hg
  rw [List.drop_take]
  exact braces_take hclose (by omega)

theorem Passes.getElem? (h : Passes quote o s m groups) : s[m]? = some quote := by
  induction h with
  | quote => rfl
  | escape _ ih => exact ih
  | @group o j m rest groups _ _ ih =>
      rw [List.getElem?_drop] at ih
      have hsum : m + j + 2 = j + 1 + m + 1 := by omega
      rw [hsum, List.getElem?_cons_succ, ih]
  | byte _ _ _ _ ih => exact ih

end Scan

namespace Template

open Scan (Group Passes)

/-! ## The pieces of a value -/

def Piece.group? : Piece → Option Group
  | .literal _ _ => none
  | .interpolation o source => some ⟨o, source.length + 1⟩

/-- A literal text as a value writes it. -/
def escaped (s : Bytes) : Bytes :=
  s.flatMap fun c => if c = '\x7b'.toUInt8 then "\\\x7b" else [c]

def Piece.spell : Piece → Bytes
  | .literal _ s => escaped s
  | .interpolation _ source => "\x7b" ++ source ++ "\x7d"

theorem escaped_append (s t : Bytes) : escaped (s ++ t) = escaped s ++ escaped t :=
  List.flatMap_append

theorem groups_consLiteral (o : Nat) (text : Bytes) (pieces : List Piece) :
    (consLiteral o text pieces).filterMap Piece.group? = pieces.filterMap Piece.group? := by
  unfold consLiteral
  split <;> rfl

theorem spell_consLiteral (o : Nat) (text : Bytes) (pieces : List Piece) :
    (consLiteral o text pieces).flatMap Piece.spell =
      escaped text ++ pieces.flatMap Piece.spell := by
  unfold consLiteral
  split
  · simp [Piece.spell, escaped_append]
  · rfl

variable {quote : UInt8} {s : Bytes} {o m : Nat} {groups : List Group}

/-- The pieces of a value are its groups and the text between them, and spell it. -/
theorem splitText_of_passes (h : Passes quote o s m groups) :
    (splitText o (s.take m)).filterMap Piece.group? = groups ∧
      (splitText o (s.take m)).flatMap Piece.spell = s.take m := by
  induction h with
  | quote => simp [splitText]
  | @escape o m rest groups _ ih =>
      have hsplit : splitText o ('\\'.toUInt8 :: '\x7b'.toUInt8 :: rest.take m) =
          consLiteral o "\x7b" (splitText (o + 2) (rest.take m)) := by
        rw [splitText, if_pos (by simp)]
        rfl
      rw [List.take_succ_cons, List.take_succ_cons, hsplit, groups_consLiteral, spell_consLiteral,
        ih.1, ih.2]
      exact ⟨rfl, rfl⟩
  | @group o j m rest groups hclose _ ih =>
      have hj : j < m + j + 1 := by omega
      have hslash : '\x7b'.toUInt8 ≠ '\\'.toUInt8 := by decide
      have hbraces : Scan.braces false ('\x7b'.toUInt8 :: rest.take (m + j + 1)) = (j + 1, true) := by
        rw [Scan.braces_cons (beq_self_eq_true _), Scan.closeBraces_take hclose hj]
      have hok : (Scan.closeBraces false 1 rest).2 = true := by rw [hclose]
      have hlt : j < rest.length := by
        have hlen := Scan.closeBraces_lt hok
        rwa [hclose] at hlen
      have hend : rest[j]? = some '\x7d'.toUInt8 := by
        have hhead := Scan.head?_drop_closeBraces hok
        rwa [hclose, List.head?_drop] at hhead
      have htail : (rest.take (m + j + 1)).drop (j + 1) = (rest.drop (j + 1)).take m := by
        rw [List.drop_take]
        congr 1
        omega
      have hsplit : splitText o ('\x7b'.toUInt8 :: rest.take (m + j + 1)) =
          .interpolation o (rest.take j) :: splitText (o + j + 2) ((rest.drop (j + 1)).take m) := by
        rw [splitText, if_neg (by simp [hslash]), if_pos (beq_self_eq_true _), hbraces]
        simp only [Nat.add_sub_cancel]
        rw [htail, List.take_take, Nat.min_eq_left (by omega)]
        rfl
      rw [List.take_succ_cons, hsplit]
      refine ⟨?_, ?_⟩
      · rw [List.filterMap_cons, Piece.group?, ih.1, List.length_take, Nat.min_eq_left (by omega)]
      · have hsum : m + j + 1 = j + 1 + m := by omega
        rw [List.flatMap_cons, ih.2, Piece.spell, hsum, List.take_add, List.take_add_one, hend]
        simp only [List.append_assoc]
        rfl
  | @byte o m c rest groups hescape hbrace hquote _ ih =>
      have hnot : ¬(c == '\\'.toUInt8 && (rest.take m).head? == some '\x7b'.toUInt8) = true := by
        rw [Bool.and_eq_true, beq_iff_eq, beq_iff_eq, List.head?_take]
        rintro ⟨hc, hhead⟩
        split at hhead
        · cases hhead
        · exact hescape hc hhead
      have hsplit : splitText o (c :: rest.take m) =
          consLiteral o [c] (splitText (o + 1) (rest.take m)) := by
        rw [splitText, if_neg hnot, if_neg (by simpa using hbrace)]
      rw [List.take_succ_cons, hsplit, groups_consLiteral, spell_consLiteral, ih.1, ih.2]
      simp [escaped, hbrace]

/-! ## The parts of a value -/

/-- A piece with a fault in it is an interpolation that is blank or no expression. -/
def Piece.Sound : Piece → Prop
  | .literal _ _ => True
  | .interpolation _ source => Name.isBlank source = false ∧ ∃ e, Expression.parse source = .ok e

theorem exists_ok_iff {ε α : Type} (x : Except ε α) : (∃ a, x = .ok a) ↔ x.isOk = true := by
  cases x <;> simp [Except.isOk, Except.toBool]

instance (piece : Piece) : Decidable piece.Sound :=
  match piece with
  | .literal _ _ => .isTrue trivial
  | .interpolation _ source =>
      decidable_of_iff (Name.isBlank source = false ∧ (Expression.parse source).isOk = true)
        (and_congr_right fun _ => (exists_ok_iff _).symm)

def Piece.Reads : Piece → Part → Prop
  | .literal _ s, .literal _ t => t = s
  | .interpolation _ source, .interpolation _ e => Expression.parse source = .ok e
  | _, _ => False

def Part.Spells : Part → Bytes → Prop
  | .literal _ s, written => written = escaped s
  | .interpolation _ e, written => ∃ w, written = "\x7b" ++ w ++ "\x7d" ∧
      Unicode.trim w = e.source ∧ Expression.parse w = .ok e

theorem Piece.Reads.spells {piece : Piece} {part : Part} (h : piece.Reads part) :
    Part.Spells part piece.spell := by
  cases piece with
  | literal o s =>
      cases part with
      | literal p t =>
          obtain rfl : t = s := h
          rfl
      | interpolation => cases h
  | interpolation o source =>
      cases part with
      | literal => cases h
      | interpolation p e => exact ⟨source, rfl, (Expression.source_of_parse h).symm, h⟩

def readPiece (base : Nat) (parts : List Part) : Piece → Build (List Part)
  | .literal offset s => return parts ++ [.literal (← Build.posOf (base + offset)) s]
  | .interpolation offset source => do
      let pos ← Build.posOf (base + offset)
      if Name.isBlank source then
        Build.fault pos .emptyInterpolation
        return parts
      else match Expression.parse source with
        | .ok e => return parts ++ [.interpolation pos e]
        | .error err =>
            Build.fault pos (.badInterpolation source err)
            return parts

theorem textParts_eq (base : Nat) (value : Bytes) :
    textParts base value = (splitText 0 value).foldlM (readPiece base) [] := by
  unfold textParts
  congr 1

theorem run_readPiece (base : Nat) (parts : List Part) {piece : Piece} (h : piece.Sound)
    (st : Builder) :
    ∃ part, piece.Reads part ∧ (readPiece base parts piece).run st = (parts ++ [part], st) := by
  cases piece with
  | literal o s => exact ⟨.literal (Pos.ofOffset st.source (base + o)) s, rfl, rfl⟩
  | interpolation o source =>
      obtain ⟨hblank, e, he⟩ := h
      refine ⟨.interpolation (Pos.ofOffset st.source (base + o)) e, he, ?_⟩
      simp only [readPiece, hblank, he]
      rfl

theorem run_readPiece_fault (base : Nat) (parts : List Part) {piece : Piece} (h : ¬piece.Sound)
    (st : Builder) :
    ∃ pos f, (readPiece base parts piece).run st = (parts, st.note pos f) := by
  cases piece with
  | literal o s => exact absurd trivial h
  | interpolation o source =>
      cases hblank : Name.isBlank source with
      | true =>
          refine ⟨Pos.ofOffset st.source (base + o), .emptyInterpolation, ?_⟩
          simp only [readPiece, hblank]
          rfl
      | false =>
          cases he : Expression.parse source with
          | ok e => exact absurd ⟨hblank, e, he⟩ h
          | error err =>
              refine ⟨Pos.ofOffset st.source (base + o), .badInterpolation source err, ?_⟩
              simp only [readPiece, hblank, he]
              rfl

theorem run_cons_readPiece (base : Nat) (parts : List Part) (piece : Piece) (pieces : List Piece)
    (st : Builder) : ((piece :: pieces).foldlM (readPiece base) parts).run st =
      (pieces.foldlM (readPiece base) ((readPiece base parts piece).run st).1).run
        ((readPiece base parts piece).run st).2 := rfl

/-- Without a fault in a piece all of them are read, and nothing else happens. -/
theorem run_pieces (base : Nat) {pieces : List Piece} (h : ∀ piece ∈ pieces, piece.Sound)
    (parts : List Part) (st : Builder) :
    ∃ read, List.Forall₂ Piece.Reads pieces read ∧
      (pieces.foldlM (readPiece base) parts).run st = (parts ++ read, st) := by
  induction pieces generalizing parts with
  | nil => exact ⟨[], .nil, by rw [List.append_nil]; rfl⟩
  | cons piece pieces ih =>
      obtain ⟨hpiece, hpieces⟩ := List.forall_mem_cons.1 h
      obtain ⟨part, hpart, hrun⟩ := run_readPiece base parts hpiece st
      obtain ⟨read, hread, hrest⟩ := ih hpieces (parts ++ [part])
      refine ⟨part :: read, .cons hpart hread, ?_⟩
      rw [run_cons_readPiece, hrun, hrest, List.append_assoc]
      rfl

theorem Builder.suffix_note (pos : Pos) (f : Fault) (st : Builder) :
    st.faults <:+ (st.note pos f).faults := by
  unfold Builder.note
  repeat' split
  · exact List.suffix_refl _
  · exact List.suffix_cons _ _
  · exact List.suffix_cons _ _

theorem Builder.length_note {st : Builder} (h : st.aborted = false) (pos : Pos) (f : Fault) :
    (st.note pos f).faults.length = st.faults.length + 1 := by
  rw [Builder.note, h]
  simp only [Bool.false_eq_true, if_false]
  split <;> rfl

theorem suffix_pieces (base : Nat) (pieces : List Piece) (parts : List Part) (st : Builder) :
    st.faults <:+ ((pieces.foldlM (readPiece base) parts).run st).2.faults := by
  induction pieces generalizing parts st with
  | nil => exact List.suffix_refl _
  | cons piece pieces ih =>
      rw [run_cons_readPiece]
      refine List.IsSuffix.trans ?_ (ih _ _)
      by_cases hpiece : piece.Sound
      · obtain ⟨part, -, hrun⟩ := run_readPiece base parts hpiece st
        simp [hrun]
      · obtain ⟨pos, f, hrun⟩ := run_readPiece_fault base parts hpiece st
        rw [hrun]
        exact st.suffix_note pos f

theorem sound_of_run_pieces (base : Nat) {pieces : List Piece} {parts : List Part} {st : Builder}
    (haborted : st.aborted = false)
    (h : ((pieces.foldlM (readPiece base) parts).run st).2.faults = st.faults) :
    ∀ piece ∈ pieces, piece.Sound := by
  induction pieces generalizing parts with
  | nil => nofun
  | cons piece pieces ih =>
      rw [run_cons_readPiece] at h
      by_cases hpiece : piece.Sound
      · obtain ⟨part, -, hrun⟩ := run_readPiece base parts hpiece st
        rw [hrun] at h
        exact List.forall_mem_cons.2 ⟨hpiece, ih h⟩
      · obtain ⟨pos, f, hrun⟩ := run_readPiece_fault base parts hpiece st
        rw [hrun] at h
        have hlen := (suffix_pieces base pieces parts (st.note pos f)).length_le
        rw [h, Builder.length_note haborted] at hlen
        omega

def Part.SpellAll (parts : List Part) (value : Bytes) : Prop :=
  ∃ written, List.Forall₂ Part.Spells parts written ∧ written.flatten = value

theorem spellAll_of_reads {pieces : List Piece} {parts : List Part}
    (h : List.Forall₂ Piece.Reads pieces parts) :
    Part.SpellAll parts (pieces.flatMap Piece.spell) := by
  refine ⟨pieces.map Piece.spell, ?_, rfl⟩
  rw [List.forall₂_map_right_iff]
  exact h.flip.imp fun _ _ hpart => Piece.Reads.spells hpart

/-- A quoted value that was found in a text is cut into pieces at the brace groups that were passed
before its closing quote: each is closed in the value where it is in the text.  If no fault is noted,
the parts spell the value, a brace in a literal text written with a backslash and an interpolation as
the braces around what it was read from. -/
theorem quoted_value_spelled {text rest : Bytes} {off m : Nat} {quote : UInt8}
    (hopen : text.drop off = quote :: rest) (hvalue : Scan.quoted? quote rest = some m) :
    let value := rest.take m
    text[off + 1 + m]? = some quote ∧
    (∃ groups, Passes quote 0 rest m groups ∧
      (splitText 0 value).filterMap Piece.group? = groups ∧
      ∀ g ∈ groups, g.offset + g.close < value.length ∧
        Scan.braces false (text.drop (off + 1 + g.offset)) = (g.close, true) ∧
        Scan.braces false (value.drop g.offset) = (g.close, true)) ∧
    ∀ base st, let r := (textParts base value).run st
      (st.aborted = false → r.2.faults = st.faults → Part.SpellAll r.1 value) ∧
        ((∀ piece ∈ splitText 0 value, piece.Sound) → r.2 = st ∧ Part.SpellAll r.1 value) := by
  intro value
  have hrest : text.drop (off + 1) = rest := by
    rw [← List.drop_drop, hopen]
    rfl
  obtain ⟨groups, hpasses⟩ := Scan.passes_of_quoted? hvalue 0
  obtain ⟨hgroups, hspell⟩ := splitText_of_passes hpasses
  have hlen : value.length = m := List.length_take_of_le (Nat.le_of_lt (Scan.quoted?_lt hvalue))
  refine ⟨?_, ⟨groups, hpasses, hgroups, fun g hg => ?_⟩, fun base st => ?_⟩
  · rw [← List.getElem?_drop, hrest]
    exact hpasses.getElem?
  · obtain ⟨hlt, hclose⟩ := hpasses.closed List.drop_zero g hg
    rw [← List.drop_drop, hrest]
    exact ⟨by omega, hclose, hpasses.closed_take g hg⟩
  · have hsound (h : ∀ piece ∈ splitText 0 value, piece.Sound) :
        ((textParts base value).run st).2 = st ∧
          Part.SpellAll ((textParts base value).run st).1 value := by
      obtain ⟨read, hread, hrun⟩ := run_pieces base h [] st
      rw [textParts_eq, hrun]
      refine ⟨rfl, ?_⟩
      have hspells := spellAll_of_reads hread
      rwa [hspell] at hspells
    refine ⟨fun haborted hfaults => (hsound ?_).2, hsound⟩
    rw [textParts_eq] at hfaults
    exact sound_of_run_pieces base haborted hfaults

/-- A value with an escaped brace, and a group with a quote and a brace in it. -/
theorem quoted_value_spelled_nested :
    let text : Bytes := Bytes.ofString "\"\\\x7b\x7b\"\x7d\"\x7d\">"
    let rest := text.drop 1
    let r := (textParts 1 (rest.take 7)).run ⟨text, "a", [], .empty true, [], [], false⟩
    text.drop 0 = '"'.toUInt8 :: rest ∧ Scan.quoted? '"'.toUInt8 rest = some 7 ∧
      r.2.faults = [] ∧ Part.SpellAll r.1 (rest.take 7) := by
  intro text rest r
  have hopen : text.drop 0 = '"'.toUInt8 :: rest := by decide
  have hvalue : Scan.quoted? '"'.toUInt8 rest = some 7 := by cbv
  have hpieces : splitText 0 (rest.take 7) =
      [.literal 0 "\x7b", .interpolation 2 "\"\x7d\""] := by cbv
  have hsound : ∀ piece ∈ splitText 0 (rest.take 7), piece.Sound := by
    rw [hpieces]
    decide +kernel
  obtain ⟨-, -, hparts⟩ := quoted_value_spelled hopen hvalue
  obtain ⟨hstate, hspells⟩ := (hparts 1 _).2 hsound
  exact ⟨hopen, hvalue, congrArg Builder.faults hstate, hspells⟩

end Template

end TagLoom

import Mathlib.Data.List.Forall2
import Mathlib.Data.List.Infix
import TagLoom.Proofs.Expr.Words
import TagLoom.Proofs.Template.Local
import TagLoom.Proofs.Template.Regions

/-!
# Plain text

A source without backslashes and without elements of the compiler is read byte by byte: its literals
and interpolations, one after the other, spell it.
-/

namespace TagLoom

namespace Node

def isLiteral : Node → Bool
  | .literal _ _ => true
  | _ => false

/-- What a literal or an interpolation was read from. -/
def Spells : Node → Bytes → Prop
  | .literal _ s, piece => piece = s
  | .interpolation _ e _, piece => ∃ w, piece = "\x7b" ++ w ++ "\x7d" ∧
      Unicode.trim w = e.source ∧ Expression.parse w = .ok e
  | _, _ => False

end Node

namespace Template

open Build

/-- A source without backslashes and without elements of the compiler. -/
structure Plain (source : Bytes) : Prop where
  noEscape : '\\'.toUInt8 ∉ source
  noOpening : ∀ rest, '<'.toUInt8 :: rest <:+ source →
    Name.isActive (Name.leading rest) = false
  noClosing : ∀ rest, '<'.toUInt8 :: '/'.toUInt8 :: rest <:+ source →
    Name.isActive (Name.leading rest) = false

theorem plain_iff {source : Bytes} : Plain source ↔ '\\'.toUInt8 ∉ source ∧
    ∀ t ∈ source.tails, t.head? = some '<'.toUInt8 →
      Name.isActive (Name.leading t.tail) = false ∧
      (t.tail.head? = some '/'.toUInt8 → Name.isActive (Name.leading t.tail.tail) = false) := by
  constructor
  · intro h
    refine ⟨h.noEscape, fun t ht hhead => ?_⟩
    obtain ⟨rest, rfl⟩ := List.head?_eq_some_iff.1 hhead
    refine ⟨h.noOpening rest ((List.mem_tails _ _).1 ht), fun hslash => ?_⟩
    obtain ⟨after, rfl⟩ := List.head?_eq_some_iff.1 hslash
    exact h.noClosing after ((List.mem_tails _ _).1 ht)
  · rintro ⟨hescape, htails⟩
    exact ⟨hescape, fun rest hrest => (htails _ ((List.mem_tails _ _).2 hrest) rfl).1,
      fun rest hrest => (htails _ ((List.mem_tails _ _).2 hrest) rfl).2 rfl⟩

instance (source : Bytes) : Decidable (Plain source) := decidable_of_iff _ plain_iff.symm

def Token.spell : Token → Bytes
  | .text _ s => s
  | .interpolation _ (some w) => "\x7b" ++ w ++ "\x7d"
  | _ => []

def Token.isFlat : Token → Bool
  | .text _ _ | .interpolation _ _ => true
  | _ => false

variable {source file : Bytes}

theorem Plain.drop {s : Bytes} (h : Plain s) (n : Nat) : Plain (s.drop n) := by
  constructor
  · exact fun hmem => h.noEscape (List.mem_of_mem_drop hmem)
  · exact fun rest hrest => h.noOpening rest (hrest.trans (List.drop_suffix n s))
  · exact fun rest hrest => h.noClosing rest (hrest.trans (List.drop_suffix n s))

/-! ## Lexemes of plain sources -/

/-- A lexeme that stands for what it was read from. -/
def Found.Copies (s : Bytes) : Found → Prop
  | .text piece => piece = s
  | .token t => t.isFlat = true ∧ '\x7b'.toUInt8 ∈ s ∧
      ((∀ o, t ≠ .interpolation o none) → t.spell = s)

theorem copies_interpolation {c : UInt8} (hc : (c == '\x7b'.toUInt8) = true) {rest : Bytes}
    {n : Nat} (hn : Scan.closeBraces true 1 rest = (n, true)) :
    "\x7b" ++ rest.take n ++ "\x7d" = (c :: rest).take (n + 2) := by
  have hok : (Scan.closeBraces true 1 rest).2 = true := by rw [hn]
  have hclose := Scan.head?_drop_closeBraces hok
  rw [hn, List.head?_drop] at hclose
  rw [beq_iff_eq.1 hc, List.take_succ_cons, List.take_add_one, hclose]
  rfl

theorem copies_lexMark {c : UInt8} {rest : Bytes} (h : Plain (c :: rest)) (ahead : Option RawAhead)
    (offset : Nat) : (lexMark ahead offset c rest).found.Copies
      ((c :: rest).take (lexMark ahead offset c rest).length) := by
  fun_cases lexMark ahead offset c rest with
  | case1 hescape =>
      rw [Bool.and_eq_true, beq_iff_eq] at hescape
      exact absurd (List.mem_cons.2 (.inl hescape.1.symm)) h.noEscape
  | case2 _ hc n hn =>
      refine ⟨rfl, ?_, fun _ => copies_interpolation hc hn⟩
      exact List.mem_cons.2 (.inl (beq_iff_eq.1 hc).symm)
  | case3 _ hc n hn =>
      refine ⟨rfl, ?_, fun hsome => absurd rfl (hsome offset)⟩
      exact List.mem_cons.2 (.inl (beq_iff_eq.1 hc).symm)
  | case4 => rfl
  | case5 => exact (List.take_length).symm
  | case6 s _ _ _ hclose name hactive =>
      obtain ⟨after, hafter⟩ := List.isPrefixOf_iff_prefix.1 hclose
      obtain ⟨rfl, rfl⟩ : '<'.toUInt8 = c ∧ '/'.toUInt8 :: after = rest := List.cons.inj hafter
      exact absurd hactive (Bool.eq_false_iff.1 (h.noClosing after (List.suffix_refl _)))
  | case7 s _ _ _ hclose =>
      obtain ⟨after, hafter⟩ := List.isPrefixOf_iff_prefix.1 hclose
      obtain ⟨rfl, -⟩ : '<'.toUInt8 = c ∧ '/'.toUInt8 :: after = rest := List.cons.inj hafter
      rfl
  | case8 _ _ _ _ _ hlt name _ hactive =>
      obtain rfl : c = '<'.toUInt8 := beq_iff_eq.1 hlt
      exact absurd hactive (Bool.eq_false_iff.1 (h.noOpening rest (List.suffix_refl _)))
  | case9 => rfl
  | case10 => rfl

theorem copies_lexeme {c : UInt8} {rest : Bytes} (h : Plain (c :: rest)) (ahead : Option RawAhead)
    (offset : Nat) : (lexeme ahead offset c rest).found.Copies
      ((c :: rest).take (lexeme ahead offset c rest).length) := by
  rw [lexeme]
  split
  · exact copies_lexMark h ahead offset
  · dsimp only
    split
    · exact copies_lexMark h none offset
    · rfl

theorem spell_consText (offset : Nat) (piece : Bytes) (ts : List Token) :
    (consText offset piece ts).flatMap Token.spell = piece ++ ts.flatMap Token.spell := by
  unfold consText
  split
  · simp [Token.spell]
  · split
    · rename_i hempty
      simp [List.isEmpty_iff.1 hempty]
    · simp [Token.spell]

theorem mem_of_consText {offset : Nat} {piece : Bytes} {ts : List Token} {t : Token}
    (ht : t ∈ consText offset piece ts) : t ∈ ts ∨ isText t = true := by
  unfold consText at ht
  split at ht
  · rcases List.mem_cons.1 ht with rfl | ht
    · exact .inr rfl
    · exact .inl (List.mem_cons_of_mem _ ht)
  · split at ht
    · exact .inl ht
    · rcases List.mem_cons.1 ht with rfl | ht
      · exact .inr rfl
      · exact .inl ht

theorem mem_consText {offset : Nat} {piece : Bytes} {ts : List Token} {t : Token} (ht : t ∈ ts)
    (hother : isText t = false) : t ∈ consText offset piece ts := by
  unfold consText
  split
  · rcases List.mem_cons.1 ht with rfl | ht
    · cases hother
    · exact List.mem_cons_of_mem _ ht
  · split
    · exact ht
    · exact List.mem_cons_of_mem _ ht

/-- Texts and interpolations that spell a source when all interpolations are closed. -/
structure Spelled (s : Bytes) (ts : List Token) : Prop where
  flat : ∀ t ∈ ts, t.isFlat = true
  spell : (∀ o, .interpolation o none ∉ ts) → ts.flatMap Token.spell = s

theorem Spelled.before {s s' : Bytes} {ts : List Token} (h : Spelled s' ts) {x : Found}
    (hx : x.Copies s) (offset : Nat) : Spelled (s ++ s') (x.before offset ts) := by
  cases x with
  | text piece =>
      obtain rfl : piece = s := hx
      constructor
      · intro t ht
        rcases mem_of_consText ht with ht | htext
        · exact h.flat t ht
        · cases t with
          | text o s => rfl
          | _ => cases htext
      · intro hclosed
        refine (spell_consText offset piece ts).trans ?_
        rw [h.spell fun o ho => hclosed o (mem_consText ho rfl)]
  | token t =>
      constructor
      · exact List.forall_mem_cons.2 ⟨hx.1, h.flat⟩
      · intro hclosed
        have ht : t.spell = s := hx.2.2 fun o heq => hclosed o (heq ▸ List.mem_cons_self)
        rw [Found.before, List.flatMap_cons, ht,
          h.spell fun o ho => hclosed o (List.mem_cons_of_mem t ho)]

theorem spelled_lexemes (ahead : Option RawAhead) (offset : Nat) {s : Bytes} (h : Plain s) :
    Spelled s (tokensOf (lexemes ahead offset s)) := by
  fun_induction lexemes ahead offset s with
  | case1 => exact ⟨fun _ h => absurd h List.not_mem_nil, fun _ => rfl⟩
  | case2 ahead offset c rest x ih =>
      have hx : x.found.Copies ((c :: rest).take x.length) := copies_lexeme h ahead offset
      have hspelled := (ih (h.drop x.length)).before hx offset
      rwa [List.take_append_drop] at hspelled

theorem spelled_lex (h : Plain source) : Spelled source (lex source) := by
  rw [lex_eq]
  exact spelled_lexemes none 0 h

theorem tokensOf_lexemes_of_notMem (ahead : Option RawAhead) (offset : Nat) {s : Bytes}
    (h : Plain s) (hbrace : '\x7b'.toUInt8 ∉ s) :
    tokensOf (lexemes ahead offset s) = if s = [] then [] else [.text offset s] := by
  fun_induction lexemes ahead offset s with
  | case1 => rfl
  | case2 ahead offset c rest x ih =>
      have hx : x.found.Copies ((c :: rest).take x.length) := copies_lexeme h ahead offset
      have hsound : x.found.Sound := sound_lexeme ahead offset c rest
      have hrest := ih (h.drop x.length) fun hmem => hbrace (List.mem_of_mem_drop hmem)
      change x.found.before offset (tokensOf (lexemes _ _ _)) = _
      rw [hrest, if_neg (List.cons_ne_nil c rest)]
      cases hfound : x.found with
      | text piece =>
          rw [hfound] at hx hsound
          have hpiece : piece = (c :: rest).take x.length := hx
          have hne : piece ≠ [] := hsound
          change consText offset piece _ = _
          by_cases hdrop : (c :: rest).drop x.length = []
          · rw [if_pos hdrop, consText, if_neg (by simpa using hne), hpiece,
              List.take_of_length_le (List.drop_eq_nil_iff.1 hdrop)]
            simp
          · rw [if_neg hdrop]
            change [Token.text offset (piece ++ _)] = _
            rw [hpiece, List.take_append_drop]
      | token t =>
          rw [hfound] at hx
          exact absurd (List.mem_of_mem_take hx.2.1) hbrace

/-! ## Reading flat tokens -/

def nodeOf (source : Bytes) : Token → Option Node
  | .text offset s => some (.literal (Pos.ofOffset source offset) s)
  | .interpolation offset (some w) =>
      if Name.isBlank w then none
      else match Expression.parse w with
        | .ok e => some (.interpolation (Pos.ofOffset source offset) e none)
        | .error _ => none
  | _ => none

abbrev Became (source : Bytes) : List Token → List Node → Prop :=
  List.Forall₂ fun t n => nodeOf source t = some n

theorem step_interpolation (offset : Nat) (w : Bytes) (st : Builder) :
    (step (.interpolation offset (some w))).run st =
      (if Name.isBlank w then fault (Pos.ofOffset st.source offset) .emptyInterpolation
      else match Expression.parse w with
        | .ok e => addNode (.interpolation (Pos.ofOffset st.source offset) e none)
        | .error err => fault (Pos.ofOffset st.source offset) (.badInterpolation w err) :
          Build Unit).run st := rfl

theorem nodeOf_interpolation (offset : Nat) {w : Bytes} (hblank : Name.isBlank w = false) :
    nodeOf source (.interpolation offset (some w)) =
      match Expression.parse w with
      | .ok e => some (.interpolation (Pos.ofOffset source offset) e none)
      | .error _ => none :=
  if_neg (Bool.eq_false_iff.1 hblank)

theorem nodeOf_eq_some {offset : Nat} {w : Bytes} {n : Node}
    (h : nodeOf source (.interpolation offset (some w)) = some n) :
    Name.isBlank w = false ∧ ∃ e, Expression.parse w = .ok e ∧
      n = .interpolation (Pos.ofOffset source offset) e none := by
  cases hblank : Name.isBlank w with
  | true => exact absurd ((if_pos hblank).symm.trans h) nofun
  | false =>
      rw [nodeOf_interpolation offset hblank] at h
      cases hparse : Expression.parse w with
      | ok e =>
          rw [hparse] at h
          exact ⟨rfl, e, rfl, (Option.some.inj h).symm⟩
      | error err =>
          rw [hparse] at h
          cases h

theorem step_of_nodeOf {t : Token} {n : Node} {st : Builder} (h : nodeOf st.source t = some n)
    (hframes : st.frames = []) :
    (step t).run st = ((), { st with root := st.root.add n }) := by
  have hadd : (addNode n).run st = ((), { st with root := st.root.add n }) := by
    obtain ⟨-, hrun⟩ | ⟨f, fs, hcons, -⟩ := modifyBody_cases (·.add n) st
    · exact hrun
    · rw [hframes] at hcons
      cases hcons
  cases t with
  | text offset s =>
      cases h
      exact hadd
  | interpolation offset w =>
      cases w with
      | none => cases h
      | some w =>
          obtain ⟨hblank, e, hparse, rfl⟩ := nodeOf_eq_some h
          rw [step_interpolation, hblank, hparse]
          exact hadd
  | opening => cases h
  | closing => cases h

theorem step_of_nodeOf_eq_none {t : Token} {st : Builder} (hflat : t.isFlat = true)
    (h : nodeOf st.source t = none) : ∃ pos e, (step t).run st = (fault pos e).run st := by
  cases t with
  | text offset s => cases h
  | interpolation offset w =>
      cases w with
      | none => exact ⟨_, .openInterpolation, rfl⟩
      | some w =>
          rw [step_interpolation]
          cases hblank : Name.isBlank w with
          | true => exact ⟨_, .emptyInterpolation, rfl⟩
          | false =>
              rw [nodeOf_interpolation offset hblank] at h
              cases hparse : Expression.parse w with
              | ok e =>
                  rw [hparse] at h
                  cases h
              | error err => exact ⟨_, .badInterpolation w err, rfl⟩
  | opening => cases hflat
  | closing => cases hflat

theorem grows_run_flat {ts : List Token}
    (hts : ∀ t ∈ ts, t.isFlat = true ∧ t.Within source.length) : Grows source file (run ts) := by
  have htag : Name.isTag "W" = true := by decide
  refine (mirrors_run htag ts (fun t ht => (hts t ht).2) fun _ _ _ _ ht => ?_).grows
  cases (hts _ ht).1

theorem run_flat {ts : List Token} (hts : ∀ t ∈ ts, t.isFlat = true ∧ t.Within source.length)
    {st : Builder} (hst : Steady source file st) (hframes : st.frames = [])
    (hclean : ((run ts).run st).2.faults = []) :
    ∃ nodes, Became source ts nodes ∧
      ((run ts).run st).2 = { st with root := nodes.foldl Body.add st.root } := by
  induction ts generalizing st with
  | nil => exact ⟨[], .nil, rfl⟩
  | cons t ts ih =>
      obtain ⟨⟨hflat, -⟩, hts⟩ := List.forall_mem_cons.1 hts
      cases hnode : nodeOf st.source t with
      | none =>
          obtain ⟨pos, e, hstep⟩ := step_of_nodeOf_eq_none hflat hnode
          have hrest : Grows source file (do if !(← get).aborted then run ts) :=
            Grows.get_bind fun st hst => by
              cases haborted : st.aborted with
              | true => exact ⟨hst, id⟩
              | false => exact grows_run_flat hts st hst
          have hrun : (run (t :: ts)).run st =
              (do fault pos e; if !(← get).aborted then run ts : Build Unit).run st := by
            rw [run, StateT.run_bind, hstep]
            rfl
          rw [hrun] at hclean
          exact absurd hclean (fault_bind_ne_nil hst pos e (k := fun _ => _) hrest).2
      | some n =>
          have hstep := step_of_nodeOf hnode hframes
          by_cases haborted : st.aborted = true
          · have hstopped : ((run (t :: ts)).run st).2.faults = st.faults := by
              rw [run_cons_eq, hstep, if_pos haborted]
            exact absurd (hstopped.symm.trans hclean) (hst.aborted haborted)
          · have hsteady : Steady source file { st with root := st.root.add n } :=
              ⟨hst.source, hst.file, hst.aborted⟩
            have hcons : (run (t :: ts)).run st = (run ts).run _ :=
              run_cons_of_step hstep (Bool.eq_false_iff.2 haborted)
            rw [hcons] at hclean ⊢
            obtain ⟨nodes, hnodes, hafter⟩ := ih hts hsteady hframes hclean
            exact ⟨n :: nodes, .cons (hst.source ▸ hnode) hnodes, hafter⟩

/-! ## The root of a plain source -/

theorem add_of_decls_eq_nil {b : Body} (hdecls : b.decls = []) (n : Node) :
    (b.add n).nodes = b.nodes ++ [n] ∧ (b.add n).decls = [] := by
  unfold Body.add
  rw [hdecls]
  split
  · split
    · exact ⟨rfl, rfl⟩
    · exact ⟨rfl, rfl⟩
  · exact ⟨rfl, rfl⟩

theorem foldl_add_of_decls_eq_nil (nodes : List Node) {b : Body} (hdecls : b.decls = []) :
    (nodes.foldl Body.add b).nodes = b.nodes ++ nodes ∧ (nodes.foldl Body.add b).decls = [] := by
  induction nodes generalizing b with
  | nil => exact ⟨(List.append_nil _).symm, hdecls⟩
  | cons n nodes ih =>
      obtain ⟨hadd, hdecls'⟩ := add_of_decls_eq_nil hdecls n
      obtain ⟨hnodes, hnone⟩ := ih hdecls'
      refine ⟨?_, hnone⟩
      rw [List.foldl_cons, hnodes, hadd, List.append_assoc, List.singleton_append]

theorem spells_of_nodeOf {t : Token} {n : Node} (h : nodeOf source t = some n) :
    n.Spells t.spell := by
  cases t with
  | text offset s =>
      cases h
      rfl
  | interpolation offset w =>
      cases w with
      | none => cases h
      | some w =>
          obtain ⟨-, e, hparse, rfl⟩ := nodeOf_eq_some h
          exact ⟨w, rfl, (Expression.source_of_parse hparse).symm, hparse⟩
  | opening => cases h
  | closing => cases h

theorem isLiteral_of_nodeOf {t : Token} {n : Node} (h : nodeOf source t = some n) :
    n.isLiteral = isText t := by
  cases t with
  | text offset s =>
      cases h
      rfl
  | interpolation offset w =>
      cases w with
      | none => cases h
      | some w =>
          obtain ⟨-, e, -, rfl⟩ := nodeOf_eq_some h
          rfl
  | opening => cases h
  | closing => cases h

theorem isBlankLiteral_of_nodeOf {t : Token} {n : Node} (h : nodeOf source t = some n) :
    n.isBlankLiteral = Name.isBlank t.spell := by
  have hspells := spells_of_nodeOf h
  cases n with
  | literal pos s =>
      rw [show t.spell = s from hspells]
      rfl
  | interpolation pos e escape =>
      obtain ⟨w, hspell, -⟩ := hspells
      rw [hspell]
      rfl
  | _ => exact hspells.elim

theorem Became.isChain {ts : List Token} {nodes : List Node} (h : Became source ts nodes)
    (hsparse : Sparse ts) :
    nodes.IsChain fun m n => ¬(m.isLiteral = true ∧ n.isLiteral = true) := by
  induction h with
  | nil => exact .nil
  | cons hnode hnodes ih =>
      cases hnodes with
      | nil => exact .singleton _
      | cons hnode' _ =>
          refine .cons_cons ?_ (ih hsparse.2)
          rintro ⟨hfirst, hsecond⟩
          rw [isLiteral_of_nodeOf hnode] at hfirst
          rw [isLiteral_of_nodeOf hnode', hsparse.1 hfirst _ rfl] at hsecond
          cases hsecond

theorem Became.spells {ts : List Token} {nodes : List Node} (h : Became source ts nodes) :
    List.Forall₂ Node.Spells nodes (ts.map Token.spell) := by
  rw [List.forall₂_map_right_iff]
  exact (h.imp fun _ _ => spells_of_nodeOf).flip

theorem Became.closed {ts : List Token} {nodes : List Node} (h : Became source ts nodes) (o : Nat) :
    Token.interpolation o none ∉ ts := by
  induction h with
  | nil => exact List.not_mem_nil
  | cons hnode _ ih =>
      intro hmem
      rcases List.mem_cons.1 hmem with rfl | hmem
      · cases hnode
      · exact ih hmem

theorem Became.allBlank {ts : List Token} {nodes : List Node} (h : Became source ts nodes) :
    Node.allBlank nodes = Name.isBlank (ts.flatMap Token.spell) := by
  induction h with
  | nil => rfl
  | cons hnode _ ih =>
      rw [List.flatMap_cons, isBlank_append, ← isBlankLiteral_of_nodeOf hnode, ← ih]
      rfl

/-- Without faults, the tokens of a plain source become the nodes of its root, one each. -/
theorem readAll_plain (hplain : Plain source) (hfaults : (readAll file source).faults = []) :
    ∃ nodes, Became source (lex source) nodes ∧ (readAll file source).root.nodes = nodes ∧
      (readAll file source).root.decls = [] ∧ (readAll file source).defs = [] := by
  have hflat := (spelled_lex hplain).flat
  have hdef : NoDefinition source := fun _ _ _ _ hmem => nomatch hflat _ hmem
  have htag : Name.isTag "W" = true := by decide
  have hflawless := flawless htag hdef hfaults
  obtain ⟨nodes, hnodes, hafter⟩ :=
    run_flat (fun t ht => ⟨hflat t ht, within_of_mem_lex source t ht⟩) (steady_start file source)
      rfl hflawless.faults
  have hroot : (readAll file source).root = nodes.foldl Body.add (.empty true) := by
    rw [hflawless.readAll, afterTokens, hafter]
    rfl
  obtain ⟨hadded, hdecls⟩ := foldl_add_of_decls_eq_nil nodes (b := .empty true) rfl
  refine ⟨nodes, hnodes, ?_, ?_, ?_⟩
  · rw [hroot, hadded]
    rfl
  · rw [hroot, hdecls]
  · rw [hflawless.readAll, hflawless.defs]

theorem defs_plain (path : Bytes) (hplain : Plain source)
    (hfaults : (readAll file source).faults = []) :
    ∃ nodes, Became source (lex source) nodes ∧
      (parse file path source).1.defs = if Name.isBlank source then [] else
        [⟨Name.ofPath path, true, .start, [], nodes, file, path⟩] := by
  obtain ⟨nodes, hnodes, hroot, hdecls, hdefs⟩ := readAll_plain hplain hfaults
  have hblank : Node.allBlank nodes = Name.isBlank source := by
    rw [hnodes.allBlank, (spelled_lex hplain).spell hnodes.closed]
  refine ⟨nodes, hnodes, ?_⟩
  rw [parse_eq]
  dsimp only
  rw [Builder.hasRoot, hroot, hdecls, hdefs, hblank]
  cases Name.isBlank source with
  | true => rfl
  | false => rfl

theorem readAll_of_notMem (file : Bytes) (hplain : Plain source)
    (hbrace : '\x7b'.toUInt8 ∉ source) : (readAll file source).faults = [] := by
  have hlex : lex source = if source = [] then [] else [.text 0 source] := by
    rw [lex_eq, tokensOf_lexemes_of_notMem none 0 hplain hbrace]
  have hafter : (afterTokens file source).frames = [] ∧ (afterTokens file source).faults = [] := by
    rw [afterTokens, hlex]
    split
    · exact ⟨rfl, rfl⟩
    · rw [run_cons_of_step (step_of_nodeOf rfl rfl) rfl]
      exact ⟨rfl, rfl⟩
  rw [readAll_eq, closeAll_of_nil hafter.1]
  exact hafter.2

/-- The root of a plain source spells it. -/
theorem parse_plain (file path : Bytes) (hplain : Plain source) :
    ((parse file path source).2 = [] →
      (Name.isBlank source = true → (parse file path source).1.defs = []) ∧
      (Name.isBlank source = false → ∃ body pieces,
        (parse file path source).1.defs =
            [⟨Name.ofPath path, true, .start, [], body, file, path⟩] ∧
          body.IsChain (fun m n => ¬(m.isLiteral = true ∧ n.isLiteral = true)) ∧
          List.Forall₂ Node.Spells body pieces ∧ pieces.flatten = source)) ∧
    ('\x7b'.toUInt8 ∉ source → (parse file path source).2 = [] ∧
      (Name.isBlank source = false → (parse file path source).1.defs =
        [⟨Name.ofPath path, true, .start, [], [.literal .start source], file, path⟩])) := by
  constructor
  · intro hfaults
    obtain ⟨nodes, hnodes, hdefs⟩ := defs_plain path hplain (List.reverse_eq_nil_iff.1 hfaults)
    refine ⟨fun hblank => ?_, fun hblank => ⟨nodes, (lex source).map Token.spell, ?_, ?_, ?_, ?_⟩⟩
    · rw [hdefs, if_pos hblank]
    · rw [hdefs, hblank]
      rfl
    · exact hnodes.isChain (agree_lexFrom none 0 source).2
    · exact hnodes.spells
    · exact (spelled_lex hplain).spell hnodes.closed
  · intro hbrace
    have hfaults := readAll_of_notMem file hplain hbrace
    refine ⟨List.reverse_eq_nil_iff.2 hfaults, fun hblank => ?_⟩
    obtain ⟨nodes, hnodes, hdefs⟩ := defs_plain path hplain hfaults
    have hne : source ≠ [] := by
      rintro rfl
      cases hblank
    rw [lex_eq, tokensOf_lexemes_of_notMem none 0 hplain hbrace, if_neg hne] at hnodes
    cases hnodes with
    | cons hnode hnil =>
        cases hnil
        cases hnode
        rw [hdefs, hblank, ofOffset_zero]
        rfl

def greeting : Bytes := "<p>Hi \x7b user.name \x7d<!-- \x7b --></p>\n"

theorem lex_greeting : lex greeting =
    [.text 0 "<p>Hi ", .interpolation 6 (some " user.name "),
      .text 19 "<!-- \x7b --></p>\n"] := by
  cbv

theorem parse_plain_greeting :
    Plain greeting ∧ (parse "a.html" "a" greeting).2 = [] ∧ Name.isBlank greeting = false ∧
      (∃ body pieces,
        (parse "a.html" "a" greeting).1.defs =
            [⟨Name.ofPath "a", true, .start, [], body, "a.html", "a"⟩] ∧
          body.IsChain (fun m n => ¬(m.isLiteral = true ∧ n.isLiteral = true)) ∧
          List.Forall₂ Node.Spells body pieces ∧ pieces.flatten = greeting) ∧
      Plain "a < b" ∧ (parse "a.html" "a" "a < b").2 = [] ∧
        (parse "a.html" "a" "a < b").1.defs =
          [⟨Name.ofPath "a", true, .start, [], [.literal .start "a < b"], "a.html", "a"⟩] := by
  have hplain : Plain greeting := by decide
  have hblank : Name.isBlank greeting = false := by decide
  have hfaults : (parse "a.html" "a" greeting).2 = [] := by
    rw [parse_eq, readAll_eq, afterTokens, lex_greeting]
    decide +kernel
  have hplain' : Plain "a < b" := by decide
  obtain ⟨hfaults', hdefs⟩ := (parse_plain "a.html" "a" hplain').2 (by decide)
  exact ⟨hplain, hfaults, hblank, ((parse_plain "a.html" "a" hplain).1 hfaults).2 hblank, hplain',
    hfaults', hdefs (by decide)⟩

end Template

end TagLoom

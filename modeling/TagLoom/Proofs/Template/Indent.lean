import TagLoom.Proofs.Unicode.Lower
import TagLoom.Template.Node
import TagLoom.Template.Parser

/-!
# Trees further into a line

A source that starts inside the first line of a longer one has the same positions there, those on
its first line further to the right.  Building a tree commutes with moving its positions so.

Positions are ordered by their lines, and on one line by their columns: a strict order in which any
two places compare.
-/

namespace TagLoom

/-! ## The order of positions -/

namespace Pos

variable {p q r : Pos}

theorem before_iff :
    p.before q = true ↔ p.line < q.line ∨ p.line = q.line ∧ p.column < q.column := by
  simp only [before, Bool.or_eq_true, Bool.and_eq_true, decide_eq_true_eq, beq_iff_eq]

theorem not_before_iff :
    p.before q = false ↔ q.line < p.line ∨ q.line = p.line ∧ q.column ≤ p.column := by
  rw [Bool.eq_false_iff, ne_eq, before_iff]
  omega

theorem before_trans (hpq : p.before q = true) (hqr : q.before r = true) :
    p.before r = true := by
  rw [before_iff] at *
  omega

theorem not_before_self (p : Pos) : p.before p = false :=
  not_before_iff.2 (.inr ⟨rfl, Nat.le_refl _⟩)

theorem ne_of_before (h : p.before q = true) : p ≠ q := by
  rintro rfl
  rw [not_before_self] at h
  cases h

theorem not_before_of_before (h : p.before q = true) : q.before p = false := by
  rw [before_iff] at h
  rw [not_before_iff]
  omega

theorem before_of_before_of_not_before (hpq : p.before q = true) (hrq : r.before q = false) :
    p.before r = true := by
  rw [not_before_iff] at hrq
  rw [before_iff] at *
  omega

theorem before_of_ne (hqp : q.before p = false) (hne : p ≠ q) : p.before q = true := by
  rw [not_before_iff] at hqp
  rw [before_iff]
  rcases hqp with hline | ⟨hline, hcolumn⟩
  · exact .inl hline
  · refine .inr ⟨hline, Nat.lt_of_le_of_ne hcolumn fun heq => hne ?_⟩
    rcases p with ⟨line, column⟩
    rcases q with ⟨line', column'⟩
    rw [Pos.mk.injEq]
    exact ⟨hline, heq⟩

/-! Sorting asks for the order as a test. -/

theorem not_before_trans (hpq : (!q.before p) = true) (hqr : (!r.before q) = true) :
    (!r.before p) = true := by
  rw [Bool.not_eq_true', not_before_iff] at *
  omega

theorem not_before_total (p q : Pos) : ((!q.before p) || (!p.before q)) = true := by
  rw [Bool.or_eq_true, Bool.not_eq_true', Bool.not_eq_true', not_before_iff, not_before_iff]
  omega

end Pos

/-! ## Positions -/

namespace Pos

/-- A position of a text that starts a number of columns into a line. -/
def indent (d : Nat) (p : Pos) : Pos := if p.line = 1 then ⟨1, p.column + d⟩ else p

variable {d : Nat}

theorem line_indent (p : Pos) : (p.indent d).line = p.line := by
  rw [indent]
  split
  · rename_i hline
    exact hline.symm
  · rfl

theorem before_indent (p q : Pos) : (p.indent d).before (q.indent d) = p.before q := by
  rw [Bool.eq_iff_iff, before_iff, before_iff, line_indent, line_indent]
  refine or_congr_right (and_congr_right fun hline => ?_)
  rw [indent, indent, hline]
  split
  · exact Nat.add_lt_add_iff_right
  · rfl

theorem one_le_line_ofOffset (source : Bytes) (offset : Nat) : 1 ≤ (ofOffset source offset).line :=
  Nat.succ_le_succ (Nat.zero_le _)

def IsPlain (s : Bytes) : Prop := ∀ c ∈ s, c < 0x80 ∧ c ≠ '\n'.toUInt8

theorem count_append_of_isPlain {start : Bytes} (h : IsPlain start) (s : Bytes) :
    Utf8.count (start ++ s) = Utf8.count s + start.length := by
  induction start with
  | nil => rfl
  | cons c start ih =>
      obtain ⟨hc, hstart⟩ := List.forall_mem_cons.1 h
      have htail := ih hstart
      rw [Utf8.count] at htail
      rw [Utf8.count, List.cons_append, Utf8.scan_cons, Utf8.decode_ascii _ hc.1, List.length_cons,
        Nat.sub_self, List.drop_zero, htail, List.length_cons, Nat.add_assoc]

theorem lastLine_append {start : Bytes} (h : IsPlain start) (s : Bytes) :
    lastLine (start ++ s) =
      if s.count '\n'.toUInt8 = 0 then start ++ s else lastLine s := by
  have hplain (t : Bytes) (ht : '\n'.toUInt8 ∉ t) : t.takeWhile (· != '\n'.toUInt8) = t := by
    have hall : ∀ c ∈ t, (c != '\n'.toUInt8) = true := fun c hc =>
      bne_iff_ne.2 fun heq => ht (heq ▸ hc)
    have hself : (t ++ []).takeWhile (· != '\n'.toUInt8) = t ++ [] :=
      List.takeWhile_append_of_pos hall
    rwa [List.append_nil] at hself
  split
  · rename_i hcount
    rw [lastLine, hplain, List.reverse_reverse]
    rw [List.mem_reverse, List.mem_append, not_or]
    exact ⟨fun hmem => (h _ hmem).2 rfl, List.count_eq_zero.1 hcount⟩
  · rename_i hcount
    have hshort : (s.reverse.takeWhile (· != '\n'.toUInt8)).length ≠ s.reverse.length := by
      intro hlen
      have hall := (List.takeWhile_prefix _).eq_of_length hlen
      have hnot : '\n'.toUInt8 ∉ s.reverse := fun hmem => by
        have hne := List.all_eq_true.1 (List.all_takeWhile (l := s.reverse)) '\n'.toUInt8
          (by rwa [hall])
        simp at hne
      exact hcount (List.count_eq_zero.2 fun hmem => hnot (List.mem_reverse.2 hmem))
    rw [lastLine, lastLine, List.reverse_append, List.takeWhile_append, if_neg hshort]

theorem ofOffset_append {start : Bytes} (h : IsPlain start) {s : Bytes} {offset : Nat}
    (hle : offset ≤ s.length) (z : Bytes) :
    ofOffset (start ++ s ++ z) (offset + start.length) =
      (ofOffset s offset).indent start.length := by
  have htake : (start ++ s ++ z).take (offset + start.length) = start ++ s.take offset := by
    rw [List.append_assoc, Nat.add_comm, List.take_length_add_append,
      List.take_append_of_le_length hle]
  have hcount : start.count '\n'.toUInt8 = 0 := List.count_eq_zero.2 fun hmem => (h _ hmem).2 rfl
  rw [ofOffset, ofOffset, htake, List.count_append, hcount, Nat.zero_add, lastLine_append h, indent]
  by_cases hline : (s.take offset).count '\n'.toUInt8 = 0
  · have hnone : IsPlain [] := by simp [IsPlain]
    have hsame := lastLine_append hnone (s.take offset)
    rw [if_pos hline, List.nil_append] at hsame
    rw [if_pos hline, count_append_of_isPlain h, if_pos (congrArg (· + 1) hline), hsame, hline]
    simp only [Nat.zero_add, mk.injEq, true_and]
    omega
  · rw [if_neg hline, if_neg fun hone => hline (Nat.succ.inj hone)]

end Pos

/-! ## Trees -/

def Part.relocate (f : Pos → Pos) : Part → Part
  | .literal p s => .literal (f p) s
  | .interpolation p e => .interpolation (f p) e

mutual

/-- A node with its positions changed, and all positions inside it. -/
def Node.relocate (f : Pos → Pos) : Node → Node
  | .literal p s => .literal (f p) s
  | .interpolation p e m => .interpolation (f p) e m
  | .invocation p name args => .invocation (f p) name (Arg.relocateAll f args)
  | .cond p e body none => .cond (f p) e (Node.relocateAll f body) none
  | .cond p e body (some other) =>
      .cond (f p) e (Node.relocateAll f body) (some (Node.relocateAll f other))
  | .loop p e item index body => .loop (f p) e item index (Node.relocateAll f body)

def Node.relocateAll (f : Pos → Pos) : List Node → List Node
  | [] => []
  | n :: ns => n.relocate f :: Node.relocateAll f ns

def Arg.relocate (f : Pos → Pos) : Arg → Arg
  | .text p name parts => .text (f p) name (parts.map (Part.relocate f))
  | .expr p name e => .expr (f p) name e
  | .content p name body => .content (f p) name (Node.relocateAll f body)

def Arg.relocateAll (f : Pos → Pos) : List Arg → List Arg
  | [] => []
  | a :: as => a.relocate f :: Arg.relocateAll f as

end

def Declaration.relocate (f : Pos → Pos) (d : Declaration) : Declaration :=
  { d with pos := f d.pos }

def Definition.relocate (f : Pos → Pos) (d : Definition) : Definition :=
  { d with pos := f d.pos, decls := d.decls.map (·.relocate f), body := d.body.map (·.relocate f) }

variable {f : Pos → Pos}

@[simp] theorem Node.relocateAll_eq (ns : List Node) :
    Node.relocateAll f ns = ns.map (Node.relocate f) := by
  induction ns with
  | nil => rfl
  | cons n ns ih => rw [Node.relocateAll, ih, List.map_cons]

@[simp] theorem Arg.relocateAll_eq (as : List Arg) :
    Arg.relocateAll f as = as.map (Arg.relocate f) := by
  induction as with
  | nil => rfl
  | cons a as ih => rw [Arg.relocateAll, ih, List.map_cons]

theorem Node.relocate_cond (p : Pos) (e : Expression) (body : List Node)
    (other : Option (List Node)) :
    (Node.cond p e body other).relocate f =
      .cond (f p) e (body.map (Node.relocate f)) (other.map (List.map (Node.relocate f))) := by
  cases other <;> simp [Node.relocate]

theorem Node.pos_relocate (n : Node) : (n.relocate f).pos = f n.pos := by
  cases n with
  | cond p e body other => cases other <;> rfl
  | _ => rfl

theorem Arg.pos_relocate (a : Arg) : (a.relocate f).pos = f a.pos := by
  cases a <;> rfl

theorem Node.isBlankLiteral_relocate (n : Node) :
    (n.relocate f).isBlankLiteral = n.isBlankLiteral := by
  cases n with
  | cond p e body other => cases other <;> rfl
  | _ => rfl

theorem Node.allBlank_relocate (ns : List Node) :
    Node.allBlank (ns.map (Node.relocate f)) = Node.allBlank ns := by
  rw [Node.allBlank, Node.allBlank, List.all_map]
  exact congrArg (ns.all ·) (funext Node.isBlankLiteral_relocate)

namespace Template

/-! ## Bodies -/

def Body.relocate (f : Pos → Pos) (b : Body) : Body :=
  { b with decls := b.decls.map (·.relocate f), nodes := b.nodes.map (·.relocate f) }

variable {d : Nat}

theorem skipBlanks_indent {p : Pos} (hp : 1 ≤ p.line) (blanks : Bytes) :
    Body.skipBlanks (p.indent d) blanks = (Body.skipBlanks p blanks).indent d := by
  induction blanks generalizing p with
  | nil => rfl
  | cons c blanks ih =>
      change Body.skipBlanks (if c == '\n'.toUInt8 then ⟨(p.indent d).line + 1, 1⟩
          else ⟨(p.indent d).line, (p.indent d).column + 1⟩) blanks =
        (Body.skipBlanks (if c == '\n'.toUInt8 then ⟨p.line + 1, 1⟩
          else ⟨p.line, p.column + 1⟩) blanks).indent d
      rw [Pos.line_indent]
      split
      · rw [← ih (Nat.le_add_left 1 _), Pos.indent, if_neg (by dsimp only; omega)]
      · have hstep : Pos.mk p.line ((p.indent d).column + 1) =
            Pos.indent d ⟨p.line, p.column + 1⟩ := by
          rw [Pos.indent, Pos.indent]
          dsimp only
          split
          · rename_i hline
            rw [hline, Nat.add_right_comm]
          · rfl
        rw [hstep]
        exact ih hp

/-- A node whose leading blanks can be dropped in both places. -/
def HasLine (n : Node) : Prop := ∀ p s, n = .literal p s → 1 ≤ p.line

theorem trimLeading_indent {n : Node} (hn : HasLine n) :
    Body.trimLeading (n.relocate (Pos.indent d)) = (Body.trimLeading n).relocate (Pos.indent d) := by
  cases n with
  | literal p s =>
      rw [Node.relocate, Body.trimLeading, Body.trimLeading, Node.relocate,
        skipBlanks_indent (hn p s rfl)]
  | cond p e body other => cases other <;> rfl
  | _ => rfl

theorem Body.add_indent (b : Body) {n : Node} (hn : HasLine n) :
    (b.relocate (Pos.indent d)).add (n.relocate (Pos.indent d)) =
      (b.add n).relocate (Pos.indent d) := by
  unfold Body.add
  rw [Node.isBlankLiteral_relocate, trimLeading_indent hn]
  cases b with
  | mk allowParams headerOpen decls nodes =>
      cases decls <;> cases headerOpen <;> cases n.isBlankLiteral <;> simp [Body.relocate]

theorem Body.addDecl_relocate {b b' : Body} {e : Declaration} (h : b.addDecl e = .ok b') :
    (b.relocate f).addDecl (e.relocate f) = .ok (b'.relocate f) := by
  unfold Body.addDecl at h ⊢
  split at h
  · cases h
  split at h
  · cases h
  rename_i hallow hopen
  have hfind : (b.relocate f).decls.find? (·.name == (e.relocate f).name) =
      (b.decls.find? (·.name == e.name)).map (·.relocate f) := by
    rw [Body.relocate, List.find?_map]
    rfl
  refine (if_neg hallow).trans ((if_neg hopen).trans ?_)
  rw [hfind]
  cases hfirst : b.decls.find? (·.name == e.name) with
  | some first => rw [hfirst] at h; cases h
  | none =>
      rw [hfirst] at h
      cases h
      simp [Body.relocate]

/-- The block that is no slot, for what an invocation holds beside its slots. -/
def implicitArgs (nodes : List Node) : List Arg :=
  match nodes with
  | n :: _ => if Node.allBlank nodes then [] else [.content n.pos Arg.implicitName nodes]
  | [] => []

theorem contentArgs_eq (slots : List Arg) (nodes : List Node) :
    contentArgs slots nodes =
      (slots ++ implicitArgs nodes).mergeSort fun a b => !b.pos.before a.pos :=
  rfl

theorem implicitArgs_indent (nodes : List Node) :
    implicitArgs (nodes.map (Node.relocate (Pos.indent d))) =
      (implicitArgs nodes).map (Arg.relocate (Pos.indent d)) := by
  unfold implicitArgs
  rw [Node.allBlank_relocate]
  cases nodes with
  | nil => rfl
  | cons n ns =>
      rw [List.map_cons]
      dsimp only
      split
      · rfl
      · rw [Node.pos_relocate, List.map_singleton, Arg.relocate, Node.relocateAll_eq]
        rfl

theorem contentArgs_indent (slots : List Arg) (nodes : List Node) :
    contentArgs (slots.map (Arg.relocate (Pos.indent d)))
        (nodes.map (Node.relocate (Pos.indent d))) =
      (contentArgs slots nodes).map (Arg.relocate (Pos.indent d)) := by
  rw [contentArgs_eq, contentArgs_eq, implicitArgs_indent, ← List.map_append]
  rw [List.map_mergeSort fun a _ b _ => ?_]
  · rw [Arg.pos_relocate, Arg.pos_relocate, Pos.before_indent]

/-! ## Open elements -/

def Opened.relocate (f : Pos → Pos) : Opened → Opened
  | .definition name => .definition name
  | .param decl => .param (decl.map (·.relocate f))
  | .slot name => .slot name
  | .cond test branch => .cond test (branch.map fun b => (b.1.map (·.relocate f), b.2))
  | .otherwise => .otherwise
  | .loop head => .loop head
  | .invocation args slots => .invocation (args.map (·.relocate f)) (slots.map (·.relocate f))

def Frame.relocate (f : Pos → Pos) (frame : Frame) : Frame :=
  ⟨frame.kind.relocate f, frame.name, f frame.pos, frame.body.relocate f⟩

end Template

end TagLoom

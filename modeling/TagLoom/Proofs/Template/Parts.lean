import TagLoom.Proofs.Template.Lexeme
import TagLoom.Proofs.Template.Tree
import TagLoom.Proofs.Template.Course

/-!
# The parts of a template

The stages after the parser use the parts of a template without looking at them again, also to find
more faults in a source that has some.  Every template the parser gives is fit for that.

Every part has the position of the place where the source reads it: a tag at its `<`, an attribute at
its name, an interpolation at its brace and a text at its first byte.
-/

namespace TagLoom.Template

/-- A part of a quoted argument is some text, or an expression that was read. -/
def PartIsSound : Part → Prop
  | .literal _ s => s ≠ []
  | .interpolation _ e => e.IsRead

/-- What the stages after the parser take for granted.  That a loop has no else branch, and that a
quoted argument is made of texts and interpolations only, the tree itself says. -/
def wellFormed : TreeSpec where
  literal _ s := s ≠ []
  interpolation _ e := e.IsRead
  invocation _ name args :=
    Name.isActive name = true ∧ name ∉ builtinElements ∧ Arg.InOrder args
  cond _ e := e.IsRead
  loop _ e item index := e.IsRead ∧ Name.isIdent item = true ∧
    (index = [] ∨ Name.isIdent index = true ∧ index ≠ item)
  textArg _ _ parts := ∀ p ∈ parts, PartIsSound p
  exprArg _ _ e := e.IsRead
  block _ name _ := Name.isIdent name = true
  decl d := Name.isIdent d.name = true ∧ ∀ e, d.default = some e → e.IsRead
  definition _ name := Name.isTag name = true

/-! ## Pieces of quoted values -/

def Piece.IsSound : Piece → Prop
  | .literal _ s => s ≠ []
  | .interpolation _ _ => True

theorem isSound_consLiteral {offset : Nat} {text : Bytes} (htext : text ≠ []) {pieces : List Piece}
    (h : ∀ p ∈ pieces, p.IsSound) : ∀ p ∈ consLiteral offset text pieces, p.IsSound := by
  unfold consLiteral
  split
  · exact List.forall_mem_cons.2
      ⟨fun hnil => htext (List.append_eq_nil_iff.1 hnil).1, (List.forall_mem_cons.1 h).2⟩
  · exact List.forall_mem_cons.2 ⟨htext, h⟩

theorem isSound_splitText (offset : Nat) (s : Bytes) : ∀ p ∈ splitText offset s, p.IsSound := by
  fun_induction splitText offset s with
  | case1 => simp
  | case2 offset c rest _ ih => exact isSound_consLiteral (by decide) ih
  | case3 offset c rest _ _ n ih => exact List.forall_mem_cons.2 ⟨trivial, ih⟩
  | case4 offset c rest _ _ ih => exact isSound_consLiteral (List.cons_ne_nil _ _) ih

theorem partIsSound_of_partOf {source value : Bytes} {base : Nat} {p : Part}
    (h : PartOf source base value p) : PartIsSound p := by
  cases h with
  | literal h => exact isSound_splitText 0 value _ h
  | interpolation _ he => exact ⟨_, he⟩

/-! ## Templates -/

theorem closed_wellFormed (source : Bytes) : wellFormed.Closed source (lex source) where
  literal _ _ h := sound_of_mem_lex source _ h
  trim _ s _ hblank hnil := by
    have htrimmed := (isBlank_dropWhile hblank).1
    rw [hnil] at htrimmed
    cases htrimmed
  interpolation _ s _ _ he := ⟨s, he⟩
  implicit _ _ _ := (by decide : Name.isIdent Arg.implicitName = true)
  opens _ _ _ _ _ h := {
    definition := fun _ _ hn => hn
    param := fun _ _ _ _ hn hdefault => ⟨hn, hdefault⟩
    slot := fun _ _ _ hn _ => hn
    cond := fun _ _ he => he
    loop := fun _ _ _ _ he hitem hindex => ⟨he, hitem, hindex⟩
    textArg := fun _ _ _ _ _ _ _ hparts p hp => partIsSound_of_partOf (hparts p hp)
    exprArg := fun _ _ _ _ he => he
    invocation := fun hname _ horder => ⟨sound_of_mem_lex source _ h, hname, horder⟩ }

/-- Whatever a source holds, its template is well-formed. -/
theorem wellFormed_parse (file path source : Bytes) :
    wellFormed.Template (parse file path source).1 :=
  template_parse file path (closed_wellFormed source)

variable {source value s : Bytes} {base start o : Nat}

/-! ## Quoted values -/

/-- A quoted value reads a piece at its offset. -/
def Piece.Stands (value : Bytes) : Piece → Prop
  | .literal o s => s ≠ [] ∧ Begins (value.drop o) s
  | .interpolation o _ => Bytes.ofString "\x7b" <+: value.drop o

/-- A text that is the first of some pieces starts at an offset. -/
def StartsAt (o : Nat) (pieces : List Piece) : Prop :=
  ∀ i s, pieces.head? = some (.literal i s) → i = o

theorem startsAt_consLiteral (o : Nat) (text : Bytes) (pieces : List Piece) :
    StartsAt o (consLiteral o text pieces) := by
  unfold consLiteral
  split
  · exact fun i s h => (Piece.literal.inj (Option.some.inj h)).1.symm
  · exact fun i s h => (Piece.literal.inj (Option.some.inj h)).1.symm

theorem startsAt_splitText (o : Nat) (s : Bytes) : StartsAt o (splitText o s) := by
  fun_cases splitText o s with
  | case1 => exact nofun
  | case2 => exact startsAt_consLiteral _ _ _
  | case3 => exact nofun
  | case4 => exact startsAt_consLiteral _ _ _

theorem stands_consLiteral {span text : Bytes} {pieces : List Piece} (hne : text ≠ [])
    (hspan : value.drop start = span ++ value.drop o) (htext : PieceOf span text)
    (hstarts : StartsAt o pieces) (h : ∀ p ∈ pieces, p.Stands value) :
    ∀ p ∈ consLiteral start text pieces, p.Stands value := by
  unfold consLiteral
  split
  · rename_i o' more rest
    obtain ⟨hmore, hrest⟩ := List.forall_mem_cons.1 h
    obtain rfl : o' = o := hstarts o' more rfl
    refine List.forall_mem_cons.2 ⟨⟨fun hnil => hne (List.append_eq_nil_iff.1 hnil).1, ?_⟩, hrest⟩
    rw [hspan]
    exact htext.begins hmore.2
  · refine List.forall_mem_cons.2 ⟨⟨hne, ?_⟩, h⟩
    have hbegins := htext.begins (u := value.drop o) Begins.nil
    rwa [List.append_nil, ← hspan] at hbegins

theorem stands_splitText (h : value.drop o = s) :
    ∀ p ∈ splitText o s, p.Stands value := by
  fun_induction splitText o s with
  | case1 => exact fun _ h => absurd h List.not_mem_nil
  | case2 o c rest hescape ih =>
      rw [Bool.and_eq_true, beq_iff_eq, beq_iff_eq] at hescape
      obtain ⟨rfl, hbrace⟩ := hescape
      obtain ⟨rest, rfl⟩ := List.head?_eq_some_iff.1 hbrace
      have hrest : value.drop (o + 2) = rest := drop_add h rfl
      exact stands_consLiteral (by decide) (by rw [h, hrest]; rfl) .brace
        (startsAt_splitText _ _) (ih hrest)
  | case3 o c rest _ hc n ih =>
      refine List.forall_mem_cons.2 ⟨?_, ih (by rw [Nat.add_assoc]; exact drop_add h rfl)⟩
      change _ <+: value.drop o
      rw [h, eq_of_beq hc]
      exact List.prefix_append _ rest
  | case4 o c rest _ _ ih =>
      have hrest : value.drop (o + 1) = rest := drop_add h rfl
      exact stands_consLiteral (List.cons_ne_nil _ _) (by rw [h, hrest]; rfl) .copy
        (startsAt_splitText _ _) (ih hrest)

/-! ## Places -/

def WordAt (source word : Bytes) (p : Pos) : Prop :=
  ∃ o, p = Pos.ofOffset source o ∧ word <+: source.drop o

def TagAt (source name : Bytes) (p : Pos) : Prop := WordAt source (Bytes.ofString "<" ++ name) p

def TextAt (source s : Bytes) (p : Pos) : Prop :=
  ∃ o, p = Pos.ofOffset source o ∧ s ≠ [] ∧ Begins (source.drop o) s

/-- A part of a quoted argument stands at its position. -/
def PartAt (source : Bytes) : Part → Prop
  | .literal p s => TextAt source s p
  | .interpolation p _ => WordAt source "\x7b" p

/-- The places of the parts of a template in its source.  The content of an invocation outside its
slots stands where its first node does. -/
def standing (source : Bytes) : TreeSpec where
  literal p s := TextAt source s p
  interpolation p _ := WordAt source "\x7b" p
  invocation p name _ := TagAt source name p
  cond p _ := TagAt source "t:if" p
  loop p _ _ _ := TagAt source "t:for" p
  textArg p name parts := name ≠ [] ∧ WordAt source name p ∧ ∀ part ∈ parts, PartAt source part
  exprArg p name _ := name ≠ [] ∧ WordAt source name p
  block p name nodes := TagAt source "t:slot" p ∨
    name = Arg.implicitName ∧ nodes.head?.map (·.pos) = some p
  decl d := TagAt source "t:param" d.pos
  definition p _ := TagAt source "t:def" p

theorem drop_of_prefix (h : value <+: source.drop base) (o : Nat) :
    ∃ z, source.drop (base + o) = value.drop o ++ z := by
  obtain ⟨z, hz⟩ := h
  exact ⟨z.drop (o - value.length), by rw [← List.drop_drop, ← hz, List.drop_append]⟩

theorem partAt_of_partOf (h : value <+: source.drop base) {p : Part}
    (hp : PartOf source base value p) : PartAt source p := by
  have hpieces := stands_splitText (o := 0) (List.drop_zero (l := value))
  cases hp with
  | @literal o s hmem =>
      obtain ⟨z, hz⟩ := drop_of_prefix h o
      obtain ⟨hne, hbegins⟩ := hpieces _ hmem
      exact ⟨base + o, rfl, hne, hz ▸ hbegins.append_left z⟩
  | @interpolation o s e hmem =>
      obtain ⟨z, hz⟩ := drop_of_prefix h o
      have hbrace : Bytes.ofString "\x7b" <+: value.drop o := hpieces _ hmem
      exact ⟨base + o, rfl, hz ▸ hbrace.trans (List.prefix_append _ z)⟩

theorem TextAt.trim {p : Pos} (h : TextAt source s p) (hblank : Name.isBlank s = false) :
    TextAt source (s.dropWhile Name.isSpace)
      (Body.skipBlanks p (s.takeWhile Name.isSpace)) := by
  obtain ⟨o, rfl, -, hbegins⟩ := h
  obtain ⟨v, -, hv, htrimmed⟩ := hbegins.trim hblank
  refine ⟨o + (s.takeWhile Name.isSpace).length, ?_, ?_, ?_⟩
  · exact skipBlanks_ofOffset (List.all_eq_true.1 List.all_takeWhile)
      (hv ▸ List.prefix_append _ v)
  · intro hnil
    have hall := (isBlank_dropWhile hblank).1
    rw [hnil] at hall
    cases hall
  · rw [drop_add hv List.drop_left]
    exact htrimmed

theorem TagAt.of_eq {name name' : Bytes} {p : Pos} (h : TagAt source name p)
    (hname : name = name') : TagAt source name' p := hname ▸ h

theorem opens_standing {name : Bytes} {attrs : List Attr}
    (htag : TagAt source name (Pos.ofOffset source o)) (hattrs : ∀ a ∈ attrs, a.Stands source) :
    (standing source).Opens source (Pos.ofOffset source o) name attrs where
  definition hname _ _ := htag.of_eq hname
  param hname _ _ _ _ _ := htag.of_eq hname
  slot hname _ _ _ _ := .inl (htag.of_eq hname)
  cond hname _ _ := htag.of_eq hname
  loop hname _ _ _ _ _ _ := htag.of_eq hname
  textArg _ a ha base value _ hvalue hparts :=
    ⟨(hattrs a ha).ne_nil, ⟨a.offset, rfl, (hattrs a ha).name⟩, fun _ hp =>
      partAt_of_partOf ((hattrs a ha).value base value hvalue) (hparts _ hp)⟩
  exprArg _ a ha _ _ := ⟨(hattrs a ha).ne_nil, ⟨a.offset, rfl, (hattrs a ha).name⟩⟩
  invocation _ _ _ := htag

theorem closed_standing (source : Bytes) : (standing source).Closed source (lex source) where
  literal offset _ ht := ⟨offset, rfl, (course_lex source).stands _ ht⟩
  trim _ _ h hblank := h.trim hblank
  interpolation offset _ _ ht _ := ⟨offset, rfl, (course_lex source).stands _ ht⟩
  opens _ _ _ _ _ ht :=
    have hstands := (course_lex source).stands _ ht
    opens_standing ⟨_, rfl, hstands.1⟩ hstands.2
  implicit _ _ _ := .inr ⟨rfl, rfl⟩

theorem standing_parse (file path source : Bytes) :
    (standing source).Template (parse file path source).1 :=
  template_parse file path (closed_standing source)

end TagLoom.Template

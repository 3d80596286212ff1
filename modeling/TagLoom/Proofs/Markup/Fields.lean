import TagLoom.Placement
import TagLoom.Proofs.Markup.AttrName
import TagLoom.Proofs.Markup.Escaped

/-!
# Places in fields

A place can also be written down in fields that all kinds of places share: its kind, the element,
the attribute, the quote around a value, and whether the tag is an end tag.  A step sets the fields
that the next place uses and clears others, and some steps keep what they do not name.  Nothing is
left behind by that: fields hold what the kind of their place says and no more, so a comparison of
all fields tells places apart as `=` does.
-/

namespace TagLoom.Markup

inductive Kind where
  | text
  | tag
  | attrName
  | afterAttrName
  | beforeValue
  | quotedValue
  | unquotedValue
  | rawText
  | comment
deriving DecidableEq

def Kind.isAttr : Kind → Bool
  | .attrName | .afterAttrName | .beforeValue | .quotedValue | .unquotedValue => true
  | .text | .tag | .rawText | .comment => false

/-- A place in fields.  Without a quote `quote` is zero. -/
structure Fields where
  kind : Kind
  elem : Bytes
  attr : Bytes
  quote : UInt8
  closing : Bool
deriving DecidableEq

namespace Fields

def zero : Fields := ⟨.text, [], [], 0, false⟩

def endTag (s : Fields) : Fields :=
  if !s.closing && isRawElem s.elem then { zero with kind := .rawText, elem := s.elem } else zero

/-- The fields once a tag has taken an attribute, and the number of bytes of its name after the
first.  A `=` where a name should begin is taken for the name. -/
def takeAttr (s : Fields) (c : UInt8) (rest : Bytes) : Fields × Nat :=
  let name := (c :: rest).takeWhile (!endsAttrName ·)
  let name := if name.isEmpty then [c] else name
  ({ s with kind := .attrName, attr := Unicode.lowerText name }, name.length - 1)

/-- The fields one step further and the number of bytes after the first that the step took. -/
def step (s : Fields) (c : UInt8) (rest : Bytes) : Fields × Nat :=
  match s.kind with
  | .text =>
      if Bytes.startsWith (c :: rest) "<!--" then ({ zero with kind := .comment }, 3)
      else if c == '<'.toUInt8 && rest.head? == some '/'.toUInt8 &&
          ((rest.drop 1).head?.map Bytes.isLetter).getD false then
        let name := (rest.drop 1).takeWhile (!endsElemName ·)
        ({ zero with kind := .tag, elem := Unicode.lowerText name, closing := true },
          1 + name.length)
      else if c == '<'.toUInt8 && (rest.head?.map Bytes.isLetter).getD false then
        let name := rest.takeWhile (!endsElemName ·)
        ({ zero with kind := .tag, elem := Unicode.lowerText name }, name.length)
      else (s, 0)
  | .comment => if Bytes.startsWith (c :: rest) "-->" then (zero, 2) else (s, 0)
  | .rawText =>
      if c == '<'.toUInt8 && rest.head? == some '/'.toUInt8 &&
          Bytes.lowerAscii ((rest.drop 1).take s.elem.length) == s.elem then
        ({ zero with kind := .tag, elem := s.elem, closing := true }, 1 + s.elem.length)
      else (s, 0)
  | .tag =>
      if c == '>'.toUInt8 then (s.endTag, 0)
      else if Name.isSpace c || c == '/'.toUInt8 then (s, 0)
      else s.takeAttr c rest
  | .afterAttrName =>
      if c == '>'.toUInt8 then (s.endTag, 0)
      else if Name.isSpace c || c == '/'.toUInt8 then (s, 0)
      else if c == '='.toUInt8 then ({ s with kind := .beforeValue }, 0)
      else s.takeAttr c rest
  | .attrName =>
      if c == '='.toUInt8 then ({ s with kind := .beforeValue }, 0)
      else if c == '>'.toUInt8 then (s.endTag, 0)
      else if Name.isSpace c then ({ s with kind := .afterAttrName }, 0)
      else ({ s with attr := s.attr ++ attrByte c }, 0)
  | .beforeValue =>
      if Name.isSpace c then (s, 0)
      else if c == '"'.toUInt8 || c == '\''.toUInt8 then
        ({ s with kind := .quotedValue, quote := c }, 0)
      else if c == '>'.toUInt8 then (s.endTag, 0)
      -- The byte is the first of the value, where neither a blank nor the end of the tag stands.
      else ({ s with kind := .unquotedValue }, 0)
  | .quotedValue =>
      if c == s.quote then ({ s with kind := .tag, attr := [], quote := 0 }, 0) else (s, 0)
  | .unquotedValue =>
      if Name.isSpace c then ({ s with kind := .tag, attr := [] }, 0)
      else if c == '>'.toUInt8 then (s.endTag, 0)
      else (s, 0)

def advance (s : Fields) : Bytes → Fields
  | [] => s
  | c :: rest =>
      let (next, more) := step s c rest
      advance next (rest.drop more)
  termination_by text => text.length
  decreasing_by simp only [List.length_drop, List.length_cons]; omega

/-- Fields that stand for a place: those that a kind has no use for are empty, and the names and
quotes that it has are there. -/
structure Formed (s : Fields) : Prop where
  text : s.kind = .text → s = zero
  comment : s.kind = .comment → s = { zero with kind := .comment }
  rawText : s.kind = .rawText →
    (s.elem = "script" ∨ s.elem = "style") ∧ s = { zero with kind := .rawText, elem := s.elem }
  quote_iff : s.quote = '"'.toUInt8 ∨ s.quote = '\''.toUInt8 ↔ s.kind = .quotedValue
  quote_zero : s.kind ≠ .quotedValue → s.quote = 0
  tag : s.kind = .tag → s.elem ≠ [] ∧ s.attr = []
  attr : s.kind.isAttr = true → s.elem ≠ [] ∧ s.attr ≠ []

end Fields

def fields : Markup → Fields
  | .text => .zero
  | .comment => { Fields.zero with kind := .comment }
  | .rawText e => { Fields.zero with kind := .rawText, elem := e }
  | .tag t => ⟨.tag, t.elem, [], 0, t.closing⟩
  | .attrName t a => ⟨.attrName, t.elem, a, 0, t.closing⟩
  | .afterAttrName t a => ⟨.afterAttrName, t.elem, a, 0, t.closing⟩
  | .beforeValue t a => ⟨.beforeValue, t.elem, a, 0, t.closing⟩
  | .quotedValue t a q => ⟨.quotedValue, t.elem, a, q, t.closing⟩
  | .unquotedValue t a => ⟨.unquotedValue, t.elem, a, 0, t.closing⟩

def Fields.place (s : Fields) : Markup :=
  let t : OpenTag := ⟨s.elem, s.closing⟩
  match s.kind with
  | .text => .text
  | .comment => .comment
  | .rawText => .rawText s.elem
  | .tag => .tag t
  | .attrName => .attrName t s.attr
  | .afterAttrName => .afterAttrName t s.attr
  | .beforeValue => .beforeValue t s.attr
  | .quotedValue => .quotedValue t s.attr s.quote
  | .unquotedValue => .unquotedValue t s.attr

@[simp] theorem place_fields (m : Markup) : m.fields.place = m := by
  cases m <;> rfl

theorem fields_injective {m m' : Markup} (h : m.fields = m'.fields) : m = m' := by
  rw [← place_fields m, h, place_fields]

/-! ## Steps -/

theorem fields_afterTag (m : Markup) (t : OpenTag) (helem : m.fields.elem = t.elem)
    (hclosing : m.fields.closing = t.closing) : m.fields.endTag = (afterTag t).fields := by
  rw [Fields.endTag, afterTag, helem, hclosing]
  split <;> rfl

theorem Fields.takeAttr_eq (s : Fields) {c : UInt8} (rest : Bytes) (hgt : c ≠ '>'.toUInt8)
    (hblank : (Name.isSpace c || c == '/'.toUInt8) = false) :
    s.takeAttr c rest =
      ({ s with
          kind := .attrName
          attr := if c == '='.toUInt8 then "="
            else Unicode.lowerText (c :: rest.takeWhile (!endsAttrName ·)) },
        if c == '='.toUInt8 then 0 else (rest.takeWhile (!endsAttrName ·)).length) := by
  by_cases hequals : c = '='.toUInt8
  · subst hequals
    rfl
  · have hpiece : endsAttrName c = false := by simp_all [not_endsAttrName_iff]
    simp [takeAttr, hpiece, hequals]

private theorem fields_step_text (c : UInt8) (rest : Bytes) :
    Fields.step Fields.zero c rest = (step .text c rest).map fields id := by
  by_cases hcomment : Bytes.startsWith (c :: rest) "<!--" = true
  · simp only [Fields.step, Fields.zero, step, hcomment, if_true, Prod.map_apply, fields, id]
  simp only [Fields.step, Fields.zero, step, hcomment, if_false, Bool.false_eq_true]
  by_cases hlt : c = '<'.toUInt8
  · cases rest with
    | nil => simp [hlt, fields, Fields.zero]
    | cons d after =>
        by_cases hslash : d = '/'.toUInt8
        · have hletter : Bytes.isLetter '/'.toUInt8 = false := by decide
          by_cases h : (after.head?.map Bytes.isLetter).getD false = true
          · simp [hlt, hslash, h, fields]
          · simp [hlt, hslash, h, hletter, fields, Fields.zero]
        · by_cases h : Bytes.isLetter d = true
          · simp [hlt, hslash, h, fields]
          · simp [hlt, hslash, h, fields, Fields.zero]
  · simp [hlt, fields, Fields.zero]

theorem fields_step (m : Markup) (c : UInt8) (rest : Bytes) :
    Fields.step m.fields c rest = (step m c rest).map fields id := by
  cases m with
  | text => exact fields_step_text c rest
  | comment =>
      rw [step, apply_ite (Prod.map fields id)]
      rfl
  | rawText e =>
      rw [step, apply_ite (Prod.map fields id)]
      rfl
  | tag t =>
      have hend := fields_afterTag (.tag t) t rfl rfl
      simp only [step, apply_ite (Prod.map fields id), Prod.map_apply, id, ← hend]
      refine ite_congr rfl (fun _ => rfl) fun hgt => ite_congr rfl (fun _ => rfl) fun hblank => ?_
      rw [Fields.takeAttr_eq _ rest (by simpa using hgt) (by simpa using hblank)]
      split <;> rfl
  | afterAttrName t a =>
      have hend := fields_afterTag (.afterAttrName t a) t rfl rfl
      simp only [step, apply_ite (Prod.map fields id), Prod.map_apply, id, ← hend]
      refine ite_congr rfl (fun _ => rfl) fun hgt => ite_congr rfl (fun _ => rfl) fun hblank =>
        ite_congr rfl (fun _ => rfl) fun hequals => ?_
      rw [Fields.takeAttr_eq _ rest (by simpa using hgt) (by simpa using hblank)]
      simp only [hequals]
      rfl
  | attrName t a =>
      have hend := fields_afterTag (.attrName t a) t rfl rfl
      simp only [step, apply_ite (Prod.map fields id), Prod.map_apply, id, ← hend]
      rfl
  | beforeValue t a =>
      have hend := fields_afterTag (.beforeValue t a) t rfl rfl
      simp only [step, apply_ite (Prod.map fields id), Prod.map_apply, id, ← hend]
      rfl
  | quotedValue t a q =>
      simp only [step, Prod.map_apply, id, apply_ite fields]
      exact (apply_ite (·, 0) _ _ _).symm
  | unquotedValue t a =>
      have hend := fields_afterTag (.unquotedValue t a) t rfl rfl
      simp only [step, apply_ite (Prod.map fields id), Prod.map_apply, id, ← hend]
      rfl

theorem fields_advance (m : Markup) (text : Bytes) :
    m.fields.advance text = (m.advance text).fields := by
  induction m, text using advance_induction with
  | nil m => rw [Fields.advance, advance_nil]
  | cons m c rest ih =>
      rw [Fields.advance, fields_step, advance_cons]
      exact ih

theorem fields_foldl_advance (m : Markup) (texts : List Bytes) :
    texts.foldl Fields.advance m.fields = (texts.foldl advance m).fields := by
  induction texts generalizing m with
  | nil => rfl
  | cons text texts ih => rw [List.foldl_cons, fields_advance, ih, List.foldl_cons]

/-! ## Names of elements -/

/-- A place in a tag or in raw text has the name of the element. -/
def ElemNamed (m : Markup) : Prop := m = .text ∨ m = .comment ∨ m.elem ≠ []

theorem ElemNamed.elem_ne_nil {m : Markup} (h : m.ElemNamed) (htext : m ≠ .text)
    (hcomment : m ≠ .comment) : m.elem ≠ [] :=
  (h.resolve_left htext).resolve_left hcomment

theorem elemNamed_afterTag {t : OpenTag} (h : t.elem ≠ []) : (afterTag t).ElemNamed := by
  unfold afterTag
  split
  · exact .inr (.inr h)
  · exact .inl rfl

theorem lowerText_elemName_ne_nil {s : Bytes} (h : (s.head?.map Bytes.isLetter).getD false = true) :
    Unicode.lowerText (s.takeWhile (!endsElemName ·)) ≠ [] := by
  cases s with
  | nil => simp at h
  | cons c s =>
      have hc : endsElemName c = false := not_endsElemName_of_isLetter (by simpa using h)
      simp [Unicode.lowerText_eq_nil_iff, hc]

theorem elemNamed_step_text (c : UInt8) (rest : Bytes) : (step .text c rest).1.ElemNamed := by
  simp only [step]
  split
  · exact .inr (.inl rfl)
  split
  · split
    · split
      · next h => exact .inr (.inr (lowerText_elemName_ne_nil (Bool.and_eq_true_iff.1 h).2))
      split
      · next h => exact .inr (.inr (lowerText_elemName_ne_nil (by simpa using h)))
      · exact .inl rfl
    · exact .inl rfl
  · exact .inl rfl

theorem ElemNamed.step {m : Markup} (h : m.ElemNamed) (c : UInt8) (rest : Bytes) :
    (Markup.step m c rest).1.ElemNamed := by
  cases m with
  | text => exact elemNamed_step_text c rest
  | comment =>
      simp only [Markup.step]
      split
      · exact .inl rfl
      · exact .inr (.inl rfl)
  | _ =>
      -- the element stays the same until the tag ends
      have helem := h.elem_ne_nil (by simp) (by simp)
      simp only [Markup.step]
      repeat' split
      all_goals first
        | exact elemNamed_afterTag helem
        | exact .inr (.inr helem)

/-! ## The fields of a place -/

theorem formed_fields {m : Markup} (hraw : RawNamed m) (hquote : QuoteNamed m)
    (helem : ElemNamed m) (hattr : m.isAttr = true → m.attr ≠ []) : m.fields.Formed := by
  have hzero : ¬((0 : UInt8) = '"'.toUInt8 ∨ (0 : UInt8) = '\''.toUInt8) := by decide
  cases m with
  | text | comment => constructor <;> simp_all [fields, Fields.zero, Kind.isAttr]
  | rawText e =>
      have hname : e = "script" ∨ e = "style" := by simpa [isRawElem] using hraw e rfl
      constructor <;> simp_all [fields, Fields.zero, Kind.isAttr]
  | quotedValue t a q =>
      have hq := hquote t a q rfl
      have helem : t.elem ≠ [] := helem.elem_ne_nil (by simp) (by simp)
      have hattr : a ≠ [] := hattr rfl
      constructor <;> simp_all [fields, Kind.isAttr]
  | tag t =>
      have helem : t.elem ≠ [] := helem.elem_ne_nil (by simp) (by simp)
      constructor <;> simp_all [fields, Kind.isAttr]
  | attrName t a | afterAttrName t a | beforeValue t a | unquotedValue t a =>
      have helem : t.elem ≠ [] := helem.elem_ne_nil (by simp) (by simp)
      have hattr : a ≠ [] := hattr rfl
      constructor <;> simp_all [fields, Kind.isAttr]

theorem formed_fields_foldl (texts : List Bytes) :
    (texts.foldl advance .text).fields.Formed := by
  have hraw : RawNamed (texts.foldl advance .text) := rawNamed_foldl (by simp [RawNamed]) texts
  have hquote : QuoteNamed (texts.foldl advance .text) :=
    foldl_advance_keeps (fun _ c rest h => h.step c rest) (by simp [QuoteNamed]) texts
  have helem : ElemNamed (texts.foldl advance .text) :=
    foldl_advance_keeps (fun _ c rest h => h.step c rest) (.inl rfl) texts
  refine formed_fields hraw hquote helem fun hattr => ?_
  obtain ⟨name, rest, hwrites⟩ := (traced_foldl texts).writes hattr
  exact hwrites.readAs.ne_nil

/-! ## Branches -/

open Placement (Subject placeNode placeNodes branchReport)

variable (t : Subject) (scope : List Bytes)

mutual

/-- Through a node the place only moves on with texts: those of the literals in it, of the first
branch where it has two. -/
theorem exists_texts_placeNode (m : Markup) (n : Node) :
    ∃ texts : List Bytes, (placeNode t scope m n).stop = texts.foldl advance m := by
  cases n with
  | literal pos s => exact ⟨[s], rfl⟩
  | interpolation pos e esc =>
      refine ⟨[], ?_⟩
      rw [placeNode]
      split <;> rfl
  | invocation pos name args => exact ⟨[], rfl⟩
  | loop pos e item index body => exact ⟨[], rfl⟩
  | cond pos e body other =>
      obtain ⟨texts, htexts⟩ := exists_texts_placeNodes m body
      cases other with
      | none => exact ⟨texts, htexts⟩
      | some other => exact ⟨texts, htexts⟩

theorem exists_texts_placeNodes (m : Markup) (ns : List Node) :
    ∃ texts : List Bytes, (placeNodes t scope m ns).stop = texts.foldl advance m := by
  cases ns with
  | nil => exact ⟨[], rfl⟩
  | cons n ns =>
      obtain ⟨first, hfirst⟩ := exists_texts_placeNode m n
      obtain ⟨rest, hrest⟩ := exists_texts_placeNodes (placeNode t scope m n).stop ns
      exact ⟨first ++ rest, by rw [placeNodes, List.foldl_append, ← hfirst, hrest]⟩

end

theorem branchReport_eq_nil_iff (pos : Pos) (yes no : Markup) :
    branchReport t pos yes no = [] ↔ yes.fields = no.fields := by
  have hplaces : branchReport t pos yes no = [] ↔ yes = no := by
    rw [branchReport]
    split <;> simp_all
  exact hplaces.trans ⟨congrArg fields, fields_injective⟩

/-- Whatever texts are written one after the other, the fields they leave stand for a place and hold
nothing else.  From there a body goes on with texts, and two branches are reported exactly if the
fields they end with differ; those of branches that both end in text never do. -/
theorem formed_foldl_advance (texts : List Bytes) :
    let s := texts.foldl Fields.advance .zero
    let m := texts.foldl advance .text
    s.Formed ∧ s = m.fields ∧
      ∀ (t : Subject) (scope : List Bytes) (pos : Pos) (yes no : List Node),
        let yesEnd := (placeNodes t scope m yes).stop
        let noEnd := (placeNodes t scope m no).stop
        (∃ more : List Bytes, yesEnd.fields = more.foldl Fields.advance s) ∧
          (∃ more : List Bytes, noEnd.fields = more.foldl Fields.advance s) ∧
          (branchReport t pos yesEnd noEnd = [] ↔ yesEnd.fields = noEnd.fields) ∧
          (yesEnd.fields.kind = .text → noEnd.fields.kind = .text →
            yesEnd.fields = noEnd.fields) := by
  intro s m
  have hs : s = m.fields := fields_foldl_advance .text texts
  refine ⟨hs ▸ formed_fields_foldl texts, hs, fun t scope pos yes no => ?_⟩
  have hformed : ∀ m' : Markup, (∃ more : List Bytes, m' = more.foldl advance m) →
      m'.fields.Formed := by
    rintro _ ⟨more, rfl⟩
    rw [← List.foldl_append]
    exact formed_fields_foldl (texts ++ more)
  have hyes := exists_texts_placeNodes t scope m yes
  have hno := exists_texts_placeNodes t scope m no
  have hfields : ∀ m' : Markup, (∃ more : List Bytes, m' = more.foldl advance m) →
      ∃ more : List Bytes, m'.fields = more.foldl Fields.advance s := by
    rintro m' ⟨more, rfl⟩
    exact ⟨more, by rw [hs, fields_foldl_advance]⟩
  refine ⟨hfields _ hyes, hfields _ hno, branchReport_eq_nil_iff t pos _ _, ?_⟩
  intro hyesText hnoText
  rw [(hformed _ hyes).text hyesText, (hformed _ hno).text hnoText]

def openParagraph : List Bytes := ["<p ti", "tle=\"a\">"]

theorem formed_foldl_advance_paragraph :
    let t : Subject := ⟨⟨"t:p", false, .start, [], [], "p.html", "p"⟩, ⟨"t:p", []⟩⟩
    let yes := (placeNodes t [] (openParagraph.foldl advance .text)
      [.literal .start "<b>now</b>"]).stop
    let no := (placeNodes t [] (openParagraph.foldl advance .text) []).stop
    yes.fields.kind = .text ∧ no.fields.kind = .text ∧ yes.fields = no.fields := by
  intro t yes no
  have hyes : yes.fields.kind = .text := by
    simp only [yes]
    decide_cbv
  have hno : no.fields.kind = .text := by
    simp only [no]
    decide_cbv
  obtain ⟨-, -, hbranches⟩ := formed_foldl_advance openParagraph
  obtain ⟨-, -, -, hsame⟩ := hbranches t [] .start [.literal .start "<b>now</b>"] []
  exact ⟨hyes, hno, hsame hyes hno⟩

end TagLoom.Markup

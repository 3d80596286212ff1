import TagLoom.Placement
import TagLoom.Proofs.Markup.Verbatim
import TagLoom.Proofs.Template.Tree

/-!
# Braces in literals

A brace in a literal was copied by the reader of templates from a region it took for a comment or
for raw text.  The places the analysis finds for the literals of a body agree with the reader
where every such region starts at the start of a comment or of raw text of the page.
-/

namespace TagLoom

namespace Placement

mutual

def literalsNode (t : Subject) (scope : List Bytes) (m : Markup) : Node → List (Markup × Bytes)
  | .literal _ s => [(m, s)]
  | .interpolation _ _ _ => []
  | .invocation _ _ args => literalsArgs t scope args
  | .loop _ _ item index body => literalsNodes t (Inference.enterLoop scope item index) m body
  | .cond _ _ body none => literalsNodes t scope m body
  | .cond _ _ body (some other) => literalsNodes t scope m body ++ literalsNodes t scope m other

def literalsNodes (t : Subject) (scope : List Bytes) (m : Markup) :
    List Node → List (Markup × Bytes)
  | [] => []
  | n :: ns => literalsNode t scope m n ++ literalsNodes t scope (placeNode t scope m n).stop ns

def literalsArgs (t : Subject) (scope : List Bytes) : List Arg → List (Markup × Bytes)
  | [] => []
  | .content _ _ body :: as => literalsNodes t scope .text body ++ literalsArgs t scope as
  | .text _ _ _ :: as => literalsArgs t scope as
  | .expr _ _ _ :: as => literalsArgs t scope as

end

/-! ## Places of literals -/

mutual

theorem rawNamed_stopNode (t : Subject) (scope : List Bytes) {m : Markup} (hm : m.RawNamed)
    (n : Node) : (placeNode t scope m n).stop.RawNamed := by
  cases n with
  | literal p s => exact hm.advance s
  | interpolation p e esc =>
      simp only [placeNode]
      split <;> exact hm
  | invocation p name args => exact hm
  | loop p e item index body => exact hm
  | cond p e body other =>
      cases other with
      | none => exact rawNamed_stopNodes t scope hm body
      | some other => exact rawNamed_stopNodes t scope hm body

theorem rawNamed_stopNodes (t : Subject) (scope : List Bytes) {m : Markup} (hm : m.RawNamed)
    (ns : List Node) : (placeNodes t scope m ns).stop.RawNamed := by
  cases ns with
  | nil => exact hm
  | cons n ns => exact rawNamed_stopNodes t scope (rawNamed_stopNode t scope hm n) ns

end

mutual

theorem literalsNode_meets {P : LeafSpec} (t : Subject) (scope : List Bytes) {m : Markup}
    (hm : m.RawNamed) (n : Node) (hn : P.Node n) :
    ∀ l ∈ literalsNode t scope m n, l.1.RawNamed ∧ P.text l.2 := by
  cases n with
  | literal p s =>
      intro l hl
      rw [List.mem_singleton.1 hl]
      exact ⟨hm, hn⟩
  | interpolation p e esc => simp [literalsNode]
  | invocation p name args => exact literalsArgs_meets t scope args hn
  | loop p e item index body => exact literalsNodes_meets t _ hm body hn.2.2.2
  | cond p e body other =>
      cases other with
      | none => exact literalsNodes_meets t scope hm body hn.2
      | some other =>
          intro l hl
          rcases List.mem_append.1 hl with hl | hl
          · exact literalsNodes_meets t scope hm body hn.2.1 l hl
          · exact literalsNodes_meets t scope hm other hn.2.2 l hl

theorem literalsNodes_meets {P : LeafSpec} (t : Subject) (scope : List Bytes) {m : Markup}
    (hm : m.RawNamed) (ns : List Node) (hns : P.Nodes ns) :
    ∀ l ∈ literalsNodes t scope m ns, l.1.RawNamed ∧ P.text l.2 := by
  cases ns with
  | nil => simp [literalsNodes]
  | cons n ns =>
      intro l hl
      rcases List.mem_append.1 hl with hl | hl
      · exact literalsNode_meets t scope hm n hns.1 l hl
      · exact literalsNodes_meets t scope (rawNamed_stopNode t scope hm n) ns hns.2 l hl

theorem literalsArgs_meets {P : LeafSpec} (t : Subject) (scope : List Bytes) (as : List Arg)
    (has : P.Args as) : ∀ l ∈ literalsArgs t scope as, l.1.RawNamed ∧ P.text l.2 := by
  cases as with
  | nil => simp [literalsArgs]
  | cons a as =>
      intro l hl
      cases a with
      | content p name body =>
          rcases List.mem_append.1 hl with hl | hl
          · exact literalsNodes_meets t scope (by simp [Markup.RawNamed]) body has.1 l hl
          · exact literalsArgs_meets t scope as has.2 l hl
      | text p name parts => exact literalsArgs_meets t scope as has.2 l hl
      | expr p name e => exact literalsArgs_meets t scope as has.2 l hl

end

/-! ## Literals of a source -/

/-- The stretches the literals of a source are made of: those of its texts, without the blanks at
their start where the header of a body dropped them. -/
def Stretches (source : Bytes) (ss : List Template.Stretch) : Prop :=
  ss ∈ Template.cuts source ∨ ∃ cut ∈ Template.cuts source, ss = Template.trimStretches cut

theorem Stretches.trim {source : Bytes} {ss : List Template.Stretch} (h : Stretches source ss) :
    Stretches source (Template.trimStretches ss) := by
  rcases h with h | ⟨cut, hcut, rfl⟩
  · exact Or.inr ⟨ss, h, rfl⟩
  · exact Or.inr ⟨cut, hcut, Template.trimStretches_trimStretches cut⟩

theorem Stretches.sound {source : Bytes} (hsource : '\\'.toUInt8 ∉ source)
    {ss : List Template.Stretch} (h : Stretches source ss) : ∀ st ∈ ss, st.Sound := by
  rcases h with h | ⟨cut, hcut, rfl⟩
  · exact fun st hst => Template.sound_of_mem_cuts hsource h hst
  · exact Template.sound_trimStretches fun st hst => Template.sound_of_mem_cuts hsource hcut hst

def spelledBy (source : Bytes) : LeafSpec where
  text s := ∃ ss, Stretches source ss ∧ Template.spell ss = s
  expr _ := True
  name _ := True

theorem closed_spelledBy (source : Bytes) : Template.Closed (spelledBy source) where
  trim := by
    rintro s ⟨ss, hss, rfl⟩
    exact ⟨Template.trimStretches ss, hss.trim, Template.spell_trimStretches ss⟩
  parsed _ _ _ := trivial
  ident _ _ := trivial

theorem exists_stretches_of_literal (file path source : Bytes) {d : Definition}
    (hd : d ∈ (Template.parse file path source).1.defs) (t : Subject) {m : Markup} {s : Bytes}
    (hl : (m, s) ∈ literalsNodes t [] .text d.body) :
    m.RawNamed ∧ ∃ ss, Stretches source ss ∧ Template.spell ss = s := by
  have htext : ∀ offset s, Template.Token.text offset s ∈ Template.lex source →
      (spelledBy source).text s := by
    intro offset s h
    obtain ⟨ss, hss, hspell⟩ := Template.exists_cut_of_text h
    exact ⟨ss, Or.inl hss, hspell⟩
  have hbody := (Template.parse_meets (closed_spelledBy source) file path source htext d hd).2
  exact literalsNodes_meets t [] (by simp [Markup.RawNamed]) d.body hbody (m, s) hl

/-- A literal of a source without backslashes is spelled by stretches of it.  A region among them
keeps all the braces it may hold exactly when the analysis is at the start of such a region where
it starts, and when that is so of every region with braces, every brace of the literal stands in a
comment or in raw text. -/
theorem literal_braces_verbatim (file path source : Bytes) (hsource : '\\'.toUInt8 ∉ source)
    (t : Subject) (d : Definition) (hd : d ∈ (Template.parse file path source).1.defs)
    (m : Markup) (s : Bytes) (hl : (m, s) ∈ literalsNodes t [] .text d.body) :
    ∃ ss, Stretches source ss ∧ Template.spell ss = s ∧
      (∀ before st after k, ss = before ++ st :: after → st.region = some k →
        (m.StartsRegion (Template.spell before) k ↔
          ∀ x, k.Holds x → (m.advance (Template.spell before ++ x)).isVerbatim = true)) ∧
      ((∀ before st after k, ss = before ++ st :: after → st.region = some k →
          '\x7b'.toUInt8 ∈ st.text → m.StartsRegion (Template.spell before) k) →
        ∀ s₁ s₂, s = s₁ ++ '\x7b'.toUInt8 :: s₂ → (m.advance s₁).isVerbatim = true) := by
  obtain ⟨hm, ss, hss, rfl⟩ := exists_stretches_of_literal file path source hd t hl
  have hsound := hss.sound hsource
  refine ⟨ss, hss, rfl, fun before st after k heq hk => ?_, fun hstarts s₁ s₂ heq => ?_⟩
  · have hst := hsound st (by simp [heq])
    rw [Template.Stretch.Sound, hk] at hst
    exact Markup.startsRegion_iff hm (Template.spell before) hst.1
  · obtain ⟨before, st, after, t₁, t₂, hsplit, htext, rfl⟩ := Template.exists_stretch heq
    have hst := hsound st (by simp [hsplit])
    have hbrace : '\x7b'.toUInt8 ∈ st.text := by simp [htext]
    rw [Template.Stretch.Sound] at hst
    split at hst
    · exact absurd hbrace hst
    · rename_i k hk
      have hstart := hstarts before st after k hsplit hk hbrace
      exact Markup.isVerbatim_of_startsRegion hm hstart (hst.2 t₁ t₂ htext)

def commentedPage : Definition :=
  ⟨[], true, .start, [], [.literal .start "<!--\x7bx\x7d-->"], [], []⟩

theorem literal_braces_verbatim_comment :
    '\\'.toUInt8 ∉ Bytes.ofString "<!--\x7bx\x7d-->" ∧
    commentedPage ∈ (Template.parse [] [] "<!--\x7bx\x7d-->").1.defs ∧
    (Markup.text, Bytes.ofString "<!--\x7bx\x7d-->") ∈
      literalsNodes ⟨commentedPage, ⟨[], []⟩⟩ [] .text commentedPage.body ∧
    (Markup.text.advance "<!--").isVerbatim = true := by
  have hsource : '\\'.toUInt8 ∉ Bytes.ofString "<!--\x7bx\x7d-->" := by decide
  have hdefs : (Template.parse [] [] "<!--\x7bx\x7d-->").1.defs = [commentedPage] := by cbv
  have hd : commentedPage ∈ (Template.parse [] [] "<!--\x7bx\x7d-->").1.defs := by
    rw [hdefs]
    exact List.mem_singleton.2 rfl
  have hl : (Markup.text, Bytes.ofString "<!--\x7bx\x7d-->") ∈
      literalsNodes ⟨commentedPage, ⟨[], []⟩⟩ [] .text commentedPage.body :=
    List.mem_singleton.2 rfl
  refine ⟨hsource, hd, hl, ?_⟩
  obtain ⟨ss, hss, -, -, hbraces⟩ :=
    literal_braces_verbatim [] [] _ hsource ⟨commentedPage, ⟨[], []⟩⟩ commentedPage hd _ _ hl
  have hcuts : Template.cuts "<!--\x7bx\x7d-->" =
      [[⟨some .comment, "<!--\x7bx\x7d-->"⟩]] := by cbv
  have hsame : ss = [⟨some .comment, "<!--\x7bx\x7d-->"⟩] := by
    rw [Stretches, hcuts] at hss
    rcases hss with hss | ⟨cut, hcut, rfl⟩
    · exact List.mem_singleton.1 hss
    · rw [List.mem_singleton.1 hcut]
      decide
  refine hbraces (fun before st after k heq hk _ => ?_) "<!--" "x\x7d-->" (by decide)
  rw [hsame] at heq
  cases before with
  | nil =>
      have hst : st.region = some .comment := by
        injection heq with hst
        rw [← hst]
      rw [hst] at hk
      cases hk
      simp [Markup.StartsRegion, Template.spell]
  | cons st' before => simp at heq

/-- An element name inside an attribute value is taken for raw text. -/
theorem literal_brace_not_verbatim_quoted :
    let parsed := Template.parse "page.html" "page" "<a title=\"<script>\">\x7bx\x7d</a>"
    let built := TagSet.build [parsed.1]
    let inferred := Inference.infer built.1
    (parsed.2.isEmpty && built.2.isEmpty && inferred.2.isEmpty &&
      (place built.1 inferred.1).2.isEmpty) = true ∧
    '\\'.toUInt8 ∉ Bytes.ofString "<a title=\"<script>\">\x7bx\x7d</a>" ∧
    built.1.defs.map (fun d => literalsNodes ⟨d, ⟨d.name, []⟩⟩ [] .text d.body) =
      [[(.text, Bytes.ofString "<a title=\"<script>\">" ++
        '\x7b'.toUInt8 :: Bytes.ofString "x\x7d</a>")]] ∧
    (Markup.text.advance "<a title=\"<script>\">").isVerbatim = false := by
  refine ⟨by cbv, by decide, by cbv, by decide +kernel⟩
end Placement

end TagLoom

import TagLoom.Proofs.Compilation.Outcome
import TagLoom.Rendering
import TagLoom.Proofs.Expr.Words
import TagLoom.Proofs.Inference.Soundness
import TagLoom.Proofs.Placement.Shape

/-!
# Accepted sources

Sources that no stage has an error on, and what that says about the tags and the signatures that the
stages after them work with.
-/

namespace TagLoom

open Diagnostic (hasErrors hasErrors_append hasErrors_flatMap)

namespace Compilation

def templatesOf (files : List SourceFile) : List Template :=
  files.map fun f => (parseFile f).template

def tagsOf (files : List SourceFile) : TagSet := (placedTags (templatesOf files)).1

def signaturesOf (files : List SourceFile) : List Signature := (placedTags (templatesOf files)).2

structure Accepted (files : List SourceFile) : Prop where
  sources : hasErrors (files.flatMap fun f => (parseFile f).reports) = false
  stages : hasErrors (stageReports (templatesOf files)) = false

variable {files : List SourceFile}

namespace Accepted

theorem built (h : Accepted files) : hasErrors (TagSet.build (templatesOf files)).2 = false := by
  have hstages := h.stages
  rw [stageReports, hasErrors_append, hasErrors_append] at hstages
  exact hstages.1.1

theorem inferred (h : Accepted files) :
    hasErrors (Inference.infer (TagSet.build (templatesOf files)).1).2 = false := by
  have hstages := h.stages
  rw [stageReports, hasErrors_append, hasErrors_append] at hstages
  exact hstages.1.2

theorem placed (h : Accepted files) :
    hasErrors (Placement.place (TagSet.build (templatesOf files)).1 (signaturesOf files)).2 =
      false := by
  have hstages := h.stages
  rw [stageReports, hasErrors_append, hasErrors_append] at hstages
  exact hstages.2

theorem quiet (h : Accepted files) : Inference.Quiet (TagSet.build (templatesOf files)).1 :=
  Inference.quiet_infer h.inferred

end Accepted

def sumPage : SourceFile := ⟨"sum", "sum", "sum", [], "<a href=\"\x7b1\x7d\">\x7b1 + 2\x7d</a>"⟩

def sumTemplate : Template :=
  ⟨"sum", "sum", [⟨"sum", true, ⟨1, 1⟩, [], [
    .literal ⟨1, 1⟩ "<a href=\"",
    .interpolation ⟨1, 10⟩ ⟨"1", .int 0 1⟩ none,
    .literal ⟨1, 13⟩ "\">",
    .interpolation ⟨1, 15⟩ ⟨"1 + 2", .binary 2 .add (.int 0 1) (.int 4 2)⟩ none,
    .literal ⟨1, 22⟩ "</a>"], "sum", "sum"⟩]⟩

theorem lex_sumPage : Template.lex sumPage.content = [.text 0 "<a href=\"",
    .interpolation 9 (some "1"), .text 12 "\">", .interpolation 14 (some "1 + 2"),
    .text 21 "</a>"] := by
  cbv

/-- What the sources of the expressions on the page are read as. -/
private theorem reads_sumPage :
    ((match Expr.parse "1" with
      | .ok (.int 0 1) => true
      | _ => false) = true ∧ Unicode.trim "1" = Bytes.ofString "1") ∧
    (match Expr.parse "1 + 2" with
      | .ok (.binary 2 .add (.int 0 1) (.int 4 2)) => true
      | _ => false) = true ∧ Unicode.trim "1 + 2" = Bytes.ofString "1 + 2" := by
  decide +kernel

theorem parse_one : Expression.parse "1" = .ok ⟨"1", .int 0 1⟩ := by
  obtain ⟨⟨hparse, htrim⟩, -⟩ := reads_sumPage
  rw [Expression.parse, htrim, Expression.ofSource]
  split at hparse
  · rename_i htree
    rw [htree]
    rfl
  · cases hparse

theorem ofSource_sum :
    Expression.ofSource "1 + 2" = .ok ⟨"1 + 2", .binary 2 .add (.int 0 1) (.int 4 2)⟩ := by
  obtain ⟨-, hparse, -⟩ := reads_sumPage
  rw [Expression.ofSource]
  split at hparse
  · rename_i htree
    rw [htree]
    rfl
  · cases hparse

theorem parse_sum :
    Expression.parse "1 + 2" = .ok ⟨"1 + 2", .binary 2 .add (.int 0 1) (.int 4 2)⟩ := by
  obtain ⟨-, -, htrim⟩ := reads_sumPage
  rw [Expression.parse, htrim, ofSource_sum]

theorem parseFile_sumPage : parseFile sumPage = ⟨[], sumTemplate, []⟩ := by
  rw [parseFile, Template.parse, lex_sumPage]
  simp only [Template.run, Template.step, parse_one, parse_sum]
  cbv

theorem templatesOf_sumPage : templatesOf [sumPage] = [sumTemplate] := by
  rw [templatesOf, List.map_singleton, parseFile_sumPage]

theorem accepted_sumPage : Accepted [sumPage] := by
  refine ⟨?_, ?_⟩
  · rw [List.flatMap_singleton, parseFile_sumPage]
    rfl
  · rw [templatesOf_sumPage]
    decide +kernel

/-! ## Leaves -/

/-- What is known of the leaves of every parsed template: expressions are what their sources are
read as, and bound names are written as names of expressions are. -/
def readLeaves : LeafSpec where
  text := fun _ => True
  expr := fun e => Expression.ofSource e.source = .ok e
  name := Expr.IsFree

theorem closed_readLeaves : Template.Closed readLeaves where
  trim := fun _ _ => trivial
  parsed := by
    intro s e h
    show Expression.ofSource e.source = .ok e
    rw [Expression.source_of_parse h]
    exact h
  ident := fun n h => Expr.isFree_of_isIdent h

theorem parse_of_read {e : Expression} (h : readLeaves.expr e) :
    Expr.parse e.source = .ok e.tree := by
  have h : Expression.ofSource e.source = .ok e := h
  rw [Expression.ofSource] at h
  cases htree : Expr.parse e.source with
  | error err => rw [htree] at h; cases h
  | ok tree =>
      rw [htree] at h
      exact congrArg _ (congrArg Expression.tree (Except.ok.inj h))

theorem isFree_of_read {e : Expression} (h : readLeaves.expr e) : ∀ n ∈ e.names, Expr.IsFree n :=
  Expr.isFree_of_parse (parse_of_read h)

theorem template_of_mem_parse {file path source : Bytes} :
    ∀ d ∈ (Template.parse file path source).1.defs, d.template = path := by
  intro d hd
  simp only [Template.parse] at hd
  rcases List.mem_append.1 hd with hd | hd
  · rw [List.mem_ite_nil_right, List.mem_singleton] at hd
    rw [hd.2]
  · obtain ⟨e, -, rfl⟩ := List.mem_map.1 hd
    rfl

/-- The tags of a set before their interpolations are placed. -/
abbrev builtTags (files : List SourceFile) : TagSet := (TagSet.build (templatesOf files)).1

theorem Accepted.origin (h : Accepted files) {d : Definition} (hd : d ∈ (builtTags files).defs) :
    readLeaves.Definition d ∧ ∃ t ∈ (builtTags files).templates, d ∈ t.defs ∧ d.template = t.path := by
  have hclean := TagSet.build_clean h.built
  obtain ⟨t, ht, hdt⟩ := List.mem_flatMap.1 (hclean.defs.mem_iff.1 hd)
  obtain ⟨f, -, rfl⟩ := List.mem_map.1 (hclean.templates.mem_iff.1 ht)
  exact ⟨Template.parse_meets closed_readLeaves _ _ _ (fun _ _ _ => trivial) d hdt,
    _, ht, hdt, template_of_mem_parse d hdt⟩

/-! ## Parameters -/

def paramsOf (files : List SourceFile) (tag : Bytes) : List Param :=
  (Inference.signatureOf (Inference.evidence (builtTags files)) tag).params

theorem params_signaturesOf {tag : Bytes} (h : tag ∈ (builtTags files).defs.map (·.name)) :
    ((Signature.find? (signaturesOf files) tag).map (·.params)).getD [] = paramsOf files tag := by
  have hsigs : signaturesOf files = (Inference.infer (builtTags files)).1 := rfl
  rw [hsigs, Inference.find?_infer h]
  rfl

theorem Accepted.isFree_param (h : Accepted files) {tag : Bytes} {param : Param}
    (hparam : param ∈ paramsOf files tag) : Expr.IsFree param.name := by
  obtain ⟨d, hd, rfl, s, hformed, rfl⟩ := Inference.exists_formed hparam
  obtain ⟨hdecls, hbody⟩ := (h.origin hd).1
  rcases hformed.name with ⟨decl, hdecl, hname⟩ | ⟨r, hr, hname⟩
  · exact hname ▸ (hdecls decl hdecl).1
  · exact Inference.bodyReads_names (fun e he => isFree_of_read he) [] d.body hbody r hr _ hname

theorem exists_default {tag : Bytes} {param : Param} (hparam : param ∈ paramsOf files tag)
    (hoptional : param.required = false) : ∃ e, param.default = some e := by
  have hdefault := (Inference.param_signatureOf hparam).1
  rw [hoptional] at hdefault
  exact Option.isSome_iff_exists.1 (by simpa using hdefault.symm)

theorem Accepted.default (h : Accepted files) {tag : Bytes} {param : Param}
    (hparam : param ∈ paramsOf files tag) {e : Expression} (he : param.default = some e) :
    Expression.ofSource e.source = .ok e ∧ e.names = [] := by
  obtain ⟨d, hd, rfl, s, hformed, rfl⟩ := Inference.exists_formed hparam
  obtain ⟨decl, hdecl, hdefault⟩ := hformed.default e he
  refine ⟨((h.origin hd).1.1 decl hdecl).2 e hdefault, ?_⟩
  have hquiet : ∀ r ∈ Inference.defaultReports d, r.isError = false := by
    simpa [hasErrors] using h.quiet.defaults d hd
  cases hnames : e.names with
  | nil => rfl
  | cons n ns =>
      have hreport := hquiet _ (List.mem_filterMap.2 ⟨decl, hdecl, by
        simp only [hdefault, hnames, List.isEmpty_cons, Bool.false_eq_true, if_false]; rfl⟩)
      cases hreport

/-! ## The tags as the renderer has them -/

def loaded (sigs : List Signature) (d : Definition) : LoadedTag :=
  ⟨d.name, ((Signature.find? sigs d.name).map (·.params)).getD [], d.body⟩

def bundleOf (files : List SourceFile) : Bundle :=
  .ofTagSet (tagsOf files) (signaturesOf files)

theorem defs_tagsOf (files : List SourceFile) : (tagsOf files).defs =
    (builtTags files).defs.map fun d => (Placement.placeDefinition (signaturesOf files) d).1 :=
  List.map_map

theorem exists_loaded {t : LoadedTag} (ht : t ∈ (bundleOf files).tags) :
    ∃ d ∈ (builtTags files).defs, t = loaded (signaturesOf files)
      (Placement.placeDefinition (signaturesOf files) d).1 ∧ t.params = paramsOf files d.name := by
  have htags : (bundleOf files).tags = (tagsOf files).defs.map (loaded (signaturesOf files)) := rfl
  rw [htags, defs_tagsOf, List.map_map] at ht
  obtain ⟨d, hd, rfl⟩ := List.mem_map.1 ht
  exact ⟨d, hd, rfl, params_signaturesOf (List.mem_map.2 ⟨d, hd, rfl⟩)⟩

theorem find?_bundleOf {tag : Bytes} (h : tag ∈ (builtTags files).defs.map (·.name)) :
    ∃ t, (bundleOf files).find? tag = some t ∧ t.params = paramsOf files tag := by
  have hnames : ((bundleOf files).tags.map (·.name)) = (builtTags files).defs.map (·.name) := by
    rw [bundleOf, Bundle.ofTagSet, List.map_map, defs_tagsOf, List.map_map]
    rfl
  have hsome : ((bundleOf files).find? tag).isSome := by
    rw [← hnames] at h
    obtain ⟨t, ht, rfl⟩ := List.mem_map.1 h
    rw [Bundle.find?, List.find?_isSome]
    exact ⟨t, ht, by simp⟩
  obtain ⟨t, ht⟩ := Option.isSome_iff_exists.1 hsome
  have hname : t.name = tag := by simpa using List.find?_some ht
  obtain ⟨d, -, rfl, hparams⟩ := exists_loaded (List.mem_of_find?_eq_some ht)
  exact ⟨_, ht, hname ▸ hparams⟩

end Compilation

end TagLoom

import TagLoom.Proofs.Code.Registered
import TagLoom.Proofs.Compilation.Accepted
import TagLoom.Proofs.Inference.SourceOrder
import TagLoom.Proofs.Rendering.Evaluator
import TagLoom.Proofs.Template.Parts

/-!
# Names of accepted sources

The parameters of an accepted tag are its declarations and then the names that occur free in it, in
the order of the source.  So every name has a value where an expression is evaluated.
-/

namespace TagLoom

namespace Rendering

variable [Language] {b : Bundle}

mutual

theorem scoped_expand (v : Value Empty) :
    Scoped b (Value.expand (fun code => code.elim) v) := by
  cases v with
  | list kind items => exact scopedItems_expand items
  | record entries => exact scopedEntries_expand entries
  | table kind entries => exact scopedRows_expand entries
  | block code env => exact code.elim
  | _ => trivial

theorem scopedItems_expand (items : List (Value Empty)) :
    Value.AllItems (InPlace b) (Value.expandItems (fun code => code.elim) items) := by
  cases items with
  | nil => trivial
  | cons v vs => exact ⟨scoped_expand v, scopedItems_expand vs⟩

theorem scopedEntries_expand (entries : List (Bytes × Value Empty)) :
    ScopedEntries b (Value.expandEntries (fun code => code.elim) entries) := by
  rcases entries with _ | ⟨⟨k, v⟩, es⟩
  · trivial
  · exact ⟨scoped_expand v, scopedEntries_expand es⟩

theorem scopedRows_expand (entries : List (Key × Value Empty)) :
    Value.AllRows (InPlace b) (Value.expandRows (fun code => code.elim) entries) := by
  rcases entries with _ | ⟨⟨k, v⟩, es⟩
  · trivial
  · exact ⟨scoped_expand v, scopedRows_expand es⟩

end

end Rendering

namespace Compilation

open Diagnostic (hasErrors hasErrors_flatMap)
open Inference (bodyReads collect evidence freeNames names_collect names_signatureOf places)
open Node (Inside ReadsAt)

variable {files : List SourceFile} {d : Definition}

theorem faults_eq_nil {file : Bytes} {faults : List (Pos × Template.Fault)}
    (h : hasErrors (Template.diagnostics file faults) = false) : faults = [] := by
  refine List.map_eq_nil_iff.1 (Diagnostic.eq_nil_of_not_hasErrors ?_ h)
  exact List.forall_mem_map.2 fun _ _ => rfl

namespace Accepted

theorem source (h : Accepted files) (hd : d ∈ (builtTags files).defs) :
    ∃ f ∈ files, d ∈ (Template.parse f.display f.logical f.content).1.defs ∧
      (Template.parse f.display f.logical f.content).2 = [] := by
  have hclean := TagSet.build_clean h.built
  obtain ⟨t, ht, hdt⟩ := List.mem_flatMap.1 (hclean.defs.mem_iff.1 hd)
  obtain ⟨f, hf, rfl⟩ := List.mem_map.1 (hclean.templates.mem_iff.1 ht)
  exact ⟨f, hf, hdt, faults_eq_nil (hasErrors_flatMap.1 h.sources f hf)⟩

theorem nodup_decls (h : Accepted files) (hd : d ∈ (builtTags files).defs) :
    (d.decls.map (·.name)).Nodup := by
  obtain ⟨f, -, hdef, -⟩ := h.source hd
  exact ((Template.wellFormed_parse f.display f.logical f.content).bodies d hdef).nodup

theorem names_paramsOf (h : Accepted files) (hd : d ∈ (builtTags files).defs) :
    (paramsOf files d.name).map (·.name) = d.decls.map (·.name) ++ freeNames d :=
  (names_signatureOf (TagSet.build_clean h.built).names hd).trans (names_collect d).2

theorem mem_paramsOf (h : Accepted files) (hd : d ∈ (builtTags files).defs) {p : Pos} {i : Nat}
    {n : Bytes} (hn : d.ReadsFree p i n) : n ∈ (paramsOf files d.name).map (·.name) := by
  rw [h.names_paramsOf hd, List.mem_append]
  by_cases hdecl : n ∈ d.decls.map (·.name)
  · exact .inl hdecl
  · exact .inr (Inference.mem_freeNames.2 ⟨hdecl, p, i, hn⟩)

theorem closed (h : Accepted files) : (bundleOf files).Closed where
  names := by
    intro t ht scope m p e hinside hreads n hn
    obtain ⟨d, hd, rfl, hparams⟩ := exists_loaded ht
    rw [hparams]
    refine or_iff_not_imp_left.2 fun hscope => ?_
    obtain ⟨i, hi⟩ := List.mem_iff_getElem?.1 (Expression.mem_freeIn.2 ⟨hn, hscope⟩)
    have hplaced : (Placement.placeDefinition (signaturesOf files) d).1.ReadsFree p i n :=
      ⟨scope, m, e, hinside, hreads, hi⟩
    obtain ⟨r, hr, hpos, hname⟩ := Inference.readsFree_iff.1 hplaced
    have hread : r ∈ bodyReads [] d.body := by
      rwa [Placement.placeDefinition, Placement.bodyReads_placeNodes] at hr
    exact h.mem_paramsOf hd (Inference.readsFree_iff.2 ⟨r, hread, hpos, hname⟩)
  defaults := by
    intro t ht param hparam e he
    obtain ⟨d, -, rfl, hparams⟩ := exists_loaded ht
    rw [hparams] at hparam
    exact (h.default hparam he).2

end Accepted

/-- The names of a signature of an accepted pass are different: the declared ones in their order,
then those that occur free in the tag and are not declared, in the order in which the source reads
them first.  And rendering a tag for a model, as deep as it goes, evaluates an expression only where
its names are bound, each to the variable of the innermost loop that declares it or else to the
parameter: whatever is made of an expression out of scope, and if the rendering ends there, makes no
difference. -/
theorem names_closed_and_ordered [Language] [LawfulLanguage] (h : Accepted files) :
    (∀ d ∈ (builtTags files).defs, ∃ sig free,
      Signature.find? (signaturesOf files) d.name = some sig ∧
      sig.names = d.decls.map (·.name) ++ free ∧ sig.names.Nodup ∧
      (∀ n, n ∈ free ↔ n ∉ d.decls.map (·.name) ∧ ∃ p i, d.ReadsFree p i n) ∧
      free.Pairwise d.FirstReadBefore) ∧
    (∀ depth, (bundleOf files).registryWithin depth = (bundleOf files).registryOver .halted depth) ∧
    ∀ ev : Rendering.Evaluator, ev.Agrees (bundleOf files) → ∀ bottom depth tag model p,
      (ev.registry (bundleOf files) bottom depth).render tag (Code.modelFor NodeBlock model) p =
        ((bundleOf files).registryOver bottom depth).render tag
          (Code.modelFor NodeBlock model) p := by
  refine ⟨fun d hd => ?_, (bundleOf files).registryWithin_eq,
    fun ev hev bottom depth tag model p => ?_⟩
  · obtain ⟨f, -, hdef, hfaults⟩ := h.source hd
    have hnames : (Inference.signatureOf (evidence (builtTags files)) d.name).names =
        d.decls.map (·.name) ++ freeNames d := h.names_paramsOf hd
    refine ⟨_, freeNames d, Inference.find?_infer (List.mem_map.2 ⟨d, hd, rfl⟩), hnames, ?_,
      fun n => Inference.mem_freeNames, ?_⟩
    · rw [hnames]
      exact Inference.nodup_append_firsts (h.nodup_decls hd) _
    · exact Inference.pairwise_freeNames
        (Template.pairwise_places_parse f.display f.logical f.content hfaults d hdef)
  · exact Rendering.render_eq hev h.closed (Rendering.scopedEntries_expand model) bottom depth tag p

/-! ## A page with a loop -/

/-- A page that reads a name outside of a loop that declares it, and inside. -/
def rowsPage : SourceFile :=
  ⟨"rows", "rows", "rows", [], "<t:param name=\"title\"/>\x7brow\x7d" ++
    "<t:for each=\x7brows\x7d as=\"row\">\x7brow\x7d\x7bmark + title\x7d</t:for>"⟩

def rowsTemplate : Template :=
  ⟨"rows", "rows", [⟨"rows", true, ⟨1, 1⟩, [⟨⟨1, 1⟩, "title", .unknown, none⟩], [
    .interpolation ⟨1, 24⟩ ⟨"row", .name 0 "row"⟩ none,
    .loop ⟨1, 29⟩ ⟨"rows", .name 0 "rows"⟩ "row" "" [
      .interpolation ⟨1, 57⟩ ⟨"row", .name 0 "row"⟩ none,
      .interpolation ⟨1, 62⟩ ⟨"mark + title",
        .binary 5 .add (.name 0 "mark") (.name 7 "title")⟩ none]], "rows", "rows"⟩]⟩

theorem lex_rowsPage : Template.lex rowsPage.content = [
    .opening 0 "t:param" [⟨9, "name", .quoted 15 "title"⟩] none true,
    .interpolation 23 (some "row"),
    .opening 28 "t:for" [⟨35, "each", .braced "rows"⟩, ⟨47, "as", .quoted 51 "row"⟩] none false,
    .interpolation 56 (some "row"), .interpolation 61 (some "mark + title"),
    .closing 75 "t:for" false] := by
  cbv

theorem parse_sources :
    (∀ s ∈ (["row", "rows"] : List Bytes), (match Expr.parse s with
      | .ok (.name 0 n) => n == s
      | _ => false) = true) ∧
    (match Expr.parse "mark + title" with
      | .ok (.binary 5 .add (.name 0 m) (.name 7 n)) => m == "mark" && n == "title"
      | _ => false) = true := by
  decide +kernel

theorem parse_name {s : Bytes} (hs : s ∈ (["row", "rows"] : List Bytes))
    (htrim : Unicode.trim s = s) : Expression.parse s = .ok ⟨s, .name 0 s⟩ := by
  have hparse := parse_sources.1 s hs
  rw [Expression.parse, htrim, Expression.ofSource]
  split at hparse
  · rename_i n htree
    rw [htree, beq_iff_eq.1 hparse]
    rfl
  · cases hparse

theorem parse_row : Expression.parse "row" = .ok ⟨"row", .name 0 "row"⟩ :=
  parse_name (by simp) (by cbv)

theorem parse_rows : Expression.parse "rows" = .ok ⟨"rows", .name 0 "rows"⟩ :=
  parse_name (by simp) (by cbv)

theorem parse_marked : Expression.parse "mark + title" =
    .ok ⟨"mark + title", .binary 5 .add (.name 0 "mark") (.name 7 "title")⟩ := by
  have hparse := parse_sources.2
  have htrim : Unicode.trim "mark + title" = Bytes.ofString "mark + title" := by cbv
  rw [Expression.parse, htrim, Expression.ofSource]
  split at hparse
  · rename_i m n htree
    obtain ⟨hm, hn⟩ := Bool.and_eq_true_iff.1 hparse
    rw [htree, beq_iff_eq.1 hm, beq_iff_eq.1 hn]
    rfl
  · cases hparse

def rowsAttrs : List Template.Attr :=
  [⟨35, "each", .braced "rows"⟩, ⟨47, "as", .quoted 51 "row"⟩]

open Template in
theorem openElement_rowsAttrs (pos : Pos) : openElement pos "t:for" rowsAttrs =
    (do
      let _ ← get
      return (.loop (some (⟨"rows", .name 0 "rows"⟩, "row", [])), false)) := by
  have hknown : knownAttrs "t:for" ["each", "as", "index"] rowsAttrs = pure rowsAttrs := rfl
  have heach : exprAttr "t:for" pos rowsAttrs "each" true =
      pure (some ⟨"rows", .name 0 "rows"⟩) := by
    have hfind : findAttr rowsAttrs "each" = some ⟨35, "each", .braced "rows"⟩ := by cbv
    have hblank : Name.isBlank "rows" = false := by cbv
    rw [exprAttr, hfind]
    simp only [hblank, Bool.false_eq_true, if_false, parse_rows]
  have hitem : nameAttr "t:for" pos rowsAttrs "as" true Name.isIdent =
      pure (some (some (Bytes.ofString "row"))) := rfl
  have hindex : nameAttr "t:for" pos rowsAttrs "index" false Name.isIdent = pure (some none) := rfl
  unfold openElement
  refine bind_congr fun st => ?_
  extract_lets frames
  rw [if_neg (by decide), if_neg (by decide), if_neg (by decide), if_neg (by decide),
    if_neg (by decide), if_pos (by decide), hknown, pure_bind, heach, pure_bind, hitem, pure_bind,
    hindex, pure_bind]
  rfl

theorem parseFile_rowsPage : parseFile rowsPage = ⟨[], rowsTemplate, []⟩ := by
  have hopen (pos : Pos) := openElement_rowsAttrs pos
  rw [rowsAttrs] at hopen
  rw [parseFile, Template.parse, lex_rowsPage]
  simp only [Template.run, Template.step, parse_row, parse_marked, hopen]
  cbv

theorem templatesOf_rowsPage : templatesOf [rowsPage] = [rowsTemplate] := by
  rw [templatesOf, List.map_singleton, parseFile_rowsPage]

theorem accepted_rowsPage : Accepted [rowsPage] := by
  refine ⟨?_, ?_⟩
  · rw [List.flatMap_singleton, parseFile_rowsPage]
    rfl
  · rw [templatesOf_rowsPage]
    cbv

theorem names_closed_and_ordered_rowsPage :
    Accepted [rowsPage] ∧
    (∃ d ∈ (builtTags [rowsPage]).defs, ∃ sig,
      Signature.find? (signaturesOf [rowsPage]) d.name = some sig ∧
      sig.names = (["title", "row", "rows", "mark"] : List Bytes) ∧
      (["row", "rows", "mark"] : List Bytes).Pairwise d.FirstReadBefore) ∧
    let b := bundleOf [rowsPage]
    (Rendering.Evaluator.guarded b).Agrees b ∧ ∀ depth model p,
      ((Rendering.Evaluator.guarded b).registry b .halted depth).render "rows"
          (Code.modelFor NodeBlock model) p =
        (b.registryWithin depth).render "rows" (Code.modelFor NodeBlock model) p := by
  obtain ⟨hsignatures, hwithin, hrender⟩ := names_closed_and_ordered accepted_rowsPage
  refine ⟨accepted_rowsPage, ?_, Rendering.agrees_guarded _, fun depth model p => ?_⟩
  · have hd : rowsTemplate.defs[0] ∈ (builtTags [rowsPage]).defs := by
      have hdefs : (TagSet.build [rowsTemplate]).1.defs = rowsTemplate.defs := by cbv
      rw [builtTags, templatesOf_rowsPage, hdefs]
      exact List.mem_singleton_self _
    have hnames : ((Signature.find? (signaturesOf [rowsPage]) "rows").map (·.names)) =
        some (["title", "row", "rows", "mark"] : List Bytes) := by
      rw [signaturesOf, templatesOf_rowsPage]
      cbv
    obtain ⟨sig, free, hsig, hsplit, -, -, horder⟩ := hsignatures rowsTemplate.defs[0] hd
    have hsame : some sig.names = some (["title", "row", "rows", "mark"] : List Bytes) :=
      (congrArg (Option.map Signature.names) hsig).symm.trans hnames
    have hnames := Option.some.inj hsame
    have hfree : free = (["row", "rows", "mark"] : List Bytes) :=
      (List.cons.inj (hsplit.symm.trans hnames)).2
    exact ⟨_, hd, sig, hsig, hnames, hfree ▸ horder⟩
  · rw [hwithin depth]
    exact hrender _ (Rendering.agrees_guarded _) .halted depth "rows" model p

end Compilation

end TagLoom

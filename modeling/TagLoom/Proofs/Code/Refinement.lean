import TagLoom.Proofs.Code.Package
import TagLoom.Proofs.Code.Prepared
import TagLoom.Proofs.Compilation.Accepted

/-!
# Generated code and the renderer agree

On accepted sources whatever a tag does in generated code it does in the renderer: the same writes
to the sink in the same order, and the same error.
-/

namespace TagLoom.Code

open Compilation
open Diagnostic (hasErrors)
open Inference (signatureOf evidence callSites)

variable {files : List SourceFile}

/-! ## What the stages found -/

theorem distinct_tagsOf (h : Accepted files) : Distinct (tagsOf files) := by
  have hclean := TagSet.build_clean h.built
  have hdefs : (tagsOf files).defs =
      (builtTags files).defs.map fun d => (Placement.placeDefinition (signaturesOf files) d).1 :=
    List.map_map
  refine ⟨?_, ?_, fun d hd => ?_⟩
  · rw [hdefs, List.map_map]
    exact hclean.names
  · rw [hdefs, List.map_map]
    exact hclean.exported
  · rw [hdefs] at hd
    obtain ⟨e, he, rfl⟩ := List.mem_map.1 hd
    obtain ⟨-, t, ht, het, htemplate⟩ := h.origin he
    exact ⟨t, ht, htemplate, e, het, rfl, rfl⟩

/-- Every call is of a built-in element, or of a tag of the set whose signature it was checked
against. -/
theorem checked_call (h : Accepted files) {d : Definition} (hd : d ∈ (builtTags files).defs)
    {c : Inference.CallSite} (hc : c ∈ callSites d) (hbuiltin : Builtin.find? c.name = none) :
    Name.isBuiltin c.name = false ∧ c.name ∈ (builtTags files).defs.map (·.name) ∧
      hasErrors (Inference.checkCall (signatureOf (evidence (builtTags files)) c.name) c) = false := by
  obtain ⟨huser, hname⟩ := (TagSet.build_clean h.built).resolved d hd c hc hbuiltin
  have hsig : Signature.find? (Inference.infer (builtTags files)).1 c.name =
      some (signatureOf (evidence (builtTags files)) c.name) := Inference.find?_infer hname
  have hcheck := h.quiet.calls d hd c hc
  simp only [Inference.checkSite, huser, hsig, Bool.false_eq_true, if_false, Option.map_some,
    Option.getD_some] at hcheck
  exact ⟨huser, hname, hcheck⟩

/-- Every call is of a built-in element, or hands a tag of the set what its parameters need. -/
theorem callable (h : Accepted files) {d : Definition} (hd : d ∈ (builtTags files).defs)
    {c : Inference.CallSite} (hc : c ∈ callSites d) (hbuiltin : Builtin.find? c.name = none) :
    c.name ∈ (builtTags files).defs.map (·.name) ∧ Callable (paramsOf files c.name) c.args := by
  obtain ⟨huser, hname, hcheck⟩ := checked_call h hd hc hbuiltin
  refine ⟨hname, ?_⟩
  obtain ⟨-, -, hrequired⟩ := Inference.names_of_checkCall hcheck
  refine ⟨fun param hparam hnone => ?_, fun param hparam pos name body hfind htext => ?_⟩
  · cases hreq : param.required with
    | true =>
        obtain ⟨a, ha, hname⟩ := hrequired param hparam hreq
        exact absurd (List.find?_eq_none.1 hnone a ha) (by simp [hname])
    | false => exact exists_default hparam hreq
  · obtain ⟨s, hs, rfl⟩ := List.mem_map.1 hparam
    obtain ⟨hmem, htag⟩ := List.mem_filter.1 hs
    have ha := List.mem_of_find?_eq_some hfind
    have hfound := List.find?_some hfind
    have hname : name = s.param.name := beq_iff_eq.1 hfound
    have hhas : (evidence (builtTags files)).has c.name name = true := by
      rw [Inference.Slots.has, Inference.Slots.find?, List.find?_isSome]
      exact ⟨s, hmem, by simpa [hname] using htag⟩
    have hgiven := (Inference.given_evidence hd hc ha).content huser hhas rfl
    have hcontent := hgiven.each s hmem (by simpa using htag) hname.symm
    have hcontent : s.content.isSome = true := hcontent
    have htype : Inference.typeOf s = .content :=
      Inference.typeOf_eq_content.2 (by simp [Inference.Slot.isContent, hcontent])
    rw [htype] at htext
    cases htext

/-! ## The package and the renderer of some sources -/

def packageOf (files : List SourceFile) : Package :=
  .ofPass (tagsOf files) (signaturesOf files)

theorem Callable.place {params : List Param} {args : List Arg} (h : Callable params args)
    (t : Placement.Subject) (scope : List Bytes) (tag : Bytes) :
    Callable params (Placement.placeArgs t scope tag args).1 := by
  refine ⟨fun param hparam hnone => ?_, fun param hparam pos name body hfind => ?_⟩
  · rw [Placement.find?_placeArgs, Option.map_eq_none_iff] at hnone
    exact h.bound param hparam hnone
  · rw [Placement.find?_placeArgs, Option.map_eq_some_iff] at hfind
    obtain ⟨a, ha, hplaced⟩ := hfind
    cases a with
    | content q arg inner => exact h.content param hparam q arg inner ha
    | text q arg parts => cases hplaced
    | expr q arg e => cases hplaced

/-- Every call of accepted sources, placed, is of a built-in element or of a tag of the set. -/
theorem resolved_placeCall (h : Accepted files) {d : Definition} (hd : d ∈ (builtTags files).defs)
    (t : Placement.Subject) {c : Inference.CallSite} (hc : c ∈ Inference.callSites d) :
    Resolved (settingOf (tagsOf files) (signaturesOf files)) (bundleOf files)
      (Placement.placeCall t c) := by
  refine ⟨fun b hb => ?_, fun hb => ?_⟩
  · have hb : Builtin.find? c.name = some b := hb
    have hbuiltin := Inference.isBuiltin_of_find? hb
    have hcheck := h.quiet.calls d hd c hc
    simp only [Inference.checkSite, hbuiltin, hb, if_true, Option.map_some, Option.getD_some] at hcheck
    exact ⟨hbuiltin, Placement.not_isContent_placeArgs t _ _
      (Inference.not_isContent_of_checkBuiltin hcheck)⟩
  · have hb : Builtin.find? c.name = none := hb
    obtain ⟨huser, -⟩ := (TagSet.build_clean h.built).resolved d hd c hc hb
    obtain ⟨hname, -⟩ := callable h hd hc hb
    obtain ⟨u, hu, hparams⟩ := find?_bundleOf hname
    exact ⟨huser, u, hu, (params_signaturesOf hname).trans hparams.symm⟩

theorem declareParams_names {programs : List Bytes} (s : Setting) (params : List Param) :
    Yields [] programs (params.mapM (declareParam s)) fun scope =>
      scope.map (·.name) = params.map (·.name) := by
  induction params with
  | nil => exact Yields.pure rfl
  | cons param params ih =>
      rw [List.mapM_cons]
      have hrest := Adds.mapM fun (q : Param) (_ : q ∈ params) => declareParam_adds s q
      refine Yields.bind (declareParam_adds s param) (P := fun l => l.name = param.name)
        (fun _ _ _ => rfl) (fun _ => hrest.bind fun _ => Adds.pure _) fun l hl => ?_
      refine Yields.bind hrest ih (fun _ => Adds.pure _) fun scope hscope => Yields.pure ?_
      rw [List.map_cons, List.map_cons, hl, hscope]

end TagLoom.Code

import Mathlib.Data.List.Nodup
import TagLoom.Proofs.Bytes.Text
import TagLoom.Proofs.Code.Package
import TagLoom.Proofs.TagSet.Declared

/-!
# Declared identifiers

The identifiers a generated package declares at its top level.  Functions and files never clash.
Variables for prepared expressions do, exactly when two files have prepared expressions and a common
name for them: the common name tells paths apart only by their letters and digits.
-/

namespace TagLoom

namespace Bytes

theorem not_of_mem_fields (p : UInt8 → Bool) (s : Bytes) :
    ∀ run ∈ fields p s, ∀ c ∈ run, p c = false := by
  let parse := s.foldr (fun c (acc : Bytes × List Bytes) =>
    if p c then ([], if acc.1.isEmpty then acc.2 else acc.1 :: acc.2)
    else (c :: acc.1, acc.2)) ([], [])
  have hparse : (∀ c ∈ parse.1, p c = false) ∧ ∀ run ∈ parse.2, ∀ c ∈ run, p c = false := by
    simp only [parse]
    induction s with
    | nil => simp
    | cons c s ih =>
        rw [List.foldr_cons]
        split
        · refine ⟨by simp, ?_⟩
          split
          · exact ih.2
          · exact List.forall_mem_cons.2 ih
        · next hc => exact ⟨List.forall_mem_cons.2 ⟨by simpa using hc, ih.1⟩, ih.2⟩
  show ∀ run ∈ (if parse.1.isEmpty then parse.2 else parse.1 :: parse.2), _
  split
  · exact hparse.2
  · exact List.forall_mem_cons.2 hparse

end Bytes

namespace Name

theorem upperByte_ne_underscore {c : UInt8} (h : c ≠ '_'.toUInt8) :
    Bytes.upperByte c ≠ '_'.toUInt8 := by
  unfold Bytes.upperByte
  split
  · next hlower =>
    intro heq
    obtain rfl : c = 127 := by
      have hadd : c - 32 + 32 = '_'.toUInt8 + 32 := congrArg (· + 32) heq
      rw [UInt8.sub_add_cancel] at hadd
      rw [hadd]
      decide
    exact absurd hlower (by decide)
  · exact h

theorem underscore_not_mem_title {word : Bytes} (h : '_'.toUInt8 ∉ word) :
    '_'.toUInt8 ∉ title word := by
  have hdigits : '_'.toUInt8 ∉ word.takeWhile Bytes.isDigit := fun hmem =>
    h (List.takeWhile_subset _ hmem)
  unfold title
  dsimp only
  split
  · next c rest hrest =>
    have hmem : ∀ b ∈ c :: rest, b ∈ word := fun b hb => List.dropWhile_subset _ (hrest ▸ hb)
    rw [List.mem_append, List.mem_cons]
    rintro (hin | hc | hin)
    · exact hdigits hin
    · exact upperByte_ne_underscore (fun heq => h (heq ▸ hmem c List.mem_cons_self)) hc.symm
    · exact h (hmem _ (List.mem_cons_of_mem _ hin))
  · exact hdigits

theorem underscore_not_mem_exported (tag : Bytes) : '_'.toUInt8 ∉ exported tag := by
  let ident := Bytes.concat ((Bytes.fields (fun c => !isAlphanumeric c) tag).map title)
  have hident : '_'.toUInt8 ∉ ident := by
    rw [show ident = ((Bytes.fields (fun c => !isAlphanumeric c) tag).map title).flatten from rfl,
      List.mem_flatten]
    rintro ⟨_, hword, hmem⟩
    obtain ⟨run, hrun, rfl⟩ := List.mem_map.1 hword
    refine underscore_not_mem_title (fun hin => ?_) hmem
    have halphanumeric := Bytes.not_of_mem_fields _ tag run hrun _ hin
    revert halphanumeric
    decide
  have htag : '_'.toUInt8 ∉ ("Tag" : Bytes) := by decide
  unfold exported
  dsimp only
  split
  · exact htag
  · split
    · exact fun hmem => (List.mem_append.1 hmem).elim htag hident
    · exact hident

theorem exported_head? (tag : Bytes) : (exported tag).head? ≠ some '_'.toUInt8 :=
  fun h => underscore_not_mem_exported tag (List.mem_of_head? h)

end Name

namespace Code

open Compilation (placedTags stageReports generate run)
open Diagnostic (hasErrors)

/-! ## Names of prepared expressions -/

/-- The variables of prepared expressions, numbered from zero under a common name. -/
def preparedNames (name : Bytes) (programs : List Bytes) : List Bytes :=
  (List.range programs.length).map fun i => name ++ Bytes.ofNat i

theorem mem_preparedNames {name x : Bytes} {programs : List Bytes} :
    x ∈ preparedNames name programs ↔ ∃ i < programs.length, x = name ++ Bytes.ofNat i := by
  simp [preparedNames, eq_comm]

theorem nodup_preparedNames (name : Bytes) (programs : List Bytes) :
    (preparedNames name programs).Nodup :=
  List.Nodup.map_on (fun _ _ _ _ h => Bytes.ofNat_injective (List.append_cancel_left h))
    List.nodup_range

theorem exprName_eq (path : Bytes) : ∃ stem, exprName path = '_'.toUInt8 :: stem ++ registryExprName :=
  ⟨_, rfl⟩

/-- The common name of some prepared expressions: one that starts with an underscore and does not
end in a digit. -/
def IsExprName (name : Bytes) : Prop :=
  name.head? = some '_'.toUInt8 ∧ ∀ c ∈ name.getLast?, Bytes.isDigit c = false

theorem isExprName_registry : IsExprName registryExprName := by
  have hlast : registryExprName.getLast? = some 'r'.toUInt8 := by decide
  refine ⟨by decide, fun c hc => ?_⟩
  rw [hlast] at hc
  obtain rfl := Option.some.inj hc
  decide

theorem isExprName_exprName (path : Bytes) : IsExprName (exprName path) := by
  obtain ⟨stem, h⟩ := exprName_eq path
  rw [h]
  refine ⟨rfl, ?_⟩
  rw [List.getLast?_append_of_ne_nil _ (by decide)]
  exact isExprName_registry.2

theorem exprName_ne_registryExprName (path : Bytes) : exprName path ≠ registryExprName := by
  obtain ⟨stem, h⟩ := exprName_eq path
  intro heq
  have hlength := congrArg List.length (h.symm.trans heq)
  rw [List.length_append, List.length_cons] at hlength
  omega

theorem disjoint_preparedNames_iff {name name' : Bytes} {programs programs' : List Bytes}
    (hname : IsExprName name) (hname' : IsExprName name') :
    (preparedNames name programs).Disjoint (preparedNames name' programs') ↔
      (programs ≠ [] → programs' ≠ [] → name ≠ name') := by
  constructor
  · rintro h hne hne' rfl
    have hzero : ∀ {ps : List Bytes}, ps ≠ [] → name ++ Bytes.ofNat 0 ∈ preparedNames name ps :=
      fun hps => mem_preparedNames.2 ⟨0, List.length_pos_of_ne_nil hps, rfl⟩
    exact h (hzero hne) (hzero hne')
  · intro h x hx hx'
    obtain ⟨i, hi, rfl⟩ := mem_preparedNames.1 hx
    obtain ⟨j, hj, heq⟩ := mem_preparedNames.1 hx'
    exact h (List.ne_nil_of_length_pos (by omega)) (List.ne_nil_of_length_pos (by omega))
      (Bytes.append_ofNat_inj hname.2 hname'.2 heq).1

theorem head?_of_mem_preparedNames {name x : Bytes} {programs : List Bytes} (hname : IsExprName name)
    (h : x ∈ preparedNames name programs) : x.head? = some '_'.toUInt8 := by
  obtain ⟨i, -, rfl⟩ := mem_preparedNames.1 h
  rw [List.head?_append, hname.1]
  rfl

/-! ## Declarations of a package -/

namespace Package

def functionNames (pkg : Package) : List Bytes :=
  pkg.files.flatMap (fun f => f.functions.map (·.name)) ++ [Name.reserved]

def variableNames (pkg : Package) : List Bytes :=
  pkg.files.flatMap (fun f => preparedNames f.exprName f.programs) ++
    preparedNames registryExprName pkg.registry.programs

def declared (pkg : Package) : List Bytes := pkg.functionNames ++ pkg.variableNames

def exprNames (pkg : Package) : List Bytes :=
  (pkg.files.filter fun f => !f.programs.isEmpty).map (·.exprName)

def fileNames (pkg : Package) : List Bytes :=
  pkg.files.map (fun f => Name.file f.path) ++ [registryFile]

variable {pkg : Package}

/-- Variables are unique exactly when no two files have prepared expressions and a common name for
them; the registry has a name of its own. -/
theorem nodup_variableNames_iff (h : ∀ f ∈ pkg.files, f.exprName = exprName f.path) :
    pkg.variableNames.Nodup ↔ pkg.exprNames.Nodup := by
  have hname : ∀ f ∈ pkg.files, IsExprName f.exprName := fun f hf => by
    rw [h f hf]
    exact isExprName_exprName f.path
  have hregistry : (pkg.files.flatMap fun f => preparedNames f.exprName f.programs).Disjoint
      (preparedNames registryExprName pkg.registry.programs) := by
    intro x hx hx'
    obtain ⟨f, hf, hx⟩ := List.mem_flatMap.1 hx
    refine (disjoint_preparedNames_iff (hname f hf) isExprName_registry).2 (fun _ _ => ?_) hx hx'
    rw [h f hf]
    exact exprName_ne_registryExprName f.path
  have hpair : pkg.files.Pairwise (Function.onFun List.Disjoint fun f =>
        preparedNames f.exprName f.programs) ↔
      pkg.files.Pairwise fun f g => f.programs ≠ [] → g.programs ≠ [] → f.exprName ≠ g.exprName :=
    List.Pairwise.iff_of_mem fun hf hg => disjoint_preparedNames_iff (hname _ hf) (hname _ hg)
  have hfilter : pkg.exprNames.Nodup ↔
      pkg.files.Pairwise fun f g => f.programs ≠ [] → g.programs ≠ [] → f.exprName ≠ g.exprName := by
    rw [exprNames, List.Nodup, List.pairwise_map, List.pairwise_filter]
    simp
  rw [variableNames, List.nodup_append', List.nodup_flatMap, hpair, hfilter]
  simp [nodup_preparedNames, hregistry]

theorem declared_nodup_iff (h : ∀ f ∈ pkg.files, f.exprName = exprName f.path)
    (hfunctions : pkg.functionNames.Nodup)
    (hhead : ∀ f ∈ pkg.functionNames, f.head? ≠ some '_'.toUInt8) :
    pkg.declared.Nodup ↔ pkg.exprNames.Nodup := by
  have hvariable : ∀ x ∈ pkg.variableNames, x.head? = some '_'.toUInt8 := by
    intro x hx
    rcases List.mem_append.1 hx with hx | hx
    · obtain ⟨f, hf, hx⟩ := List.mem_flatMap.1 hx
      exact head?_of_mem_preparedNames (h f hf ▸ isExprName_exprName f.path) hx
    · exact head?_of_mem_preparedNames isExprName_registry hx
  have hdisjoint : pkg.functionNames.Disjoint pkg.variableNames := fun x hx hx' =>
    hhead x hx (hvariable x hx')
  rw [declared, List.nodup_append', nodup_variableNames_iff h]
  simp [hfunctions, hdisjoint]

end Package

/-! ## The package of a pass -/

theorem map_eq_of_forall₂ {α β γ : Type} {R : α → β → Prop} {p : α → γ} {q : β → γ}
    (hR : ∀ a b, R a b → q b = p a) {xs : List α} {ys : List β} (h : List.Forall₂ R xs ys) :
    ys.map q = xs.map p := by
  induction h with
  | nil => rfl
  | cons hab _ ih => rw [List.map_cons, List.map_cons, hR _ _ hab, ih]

theorem emittedDefs_sublist (accepted : List Definition) (t : Template) :
    ((emittedDefs accepted t).map fun d => Name.exported d.name).Sublist
      (t.defs.map fun d => Name.exported d.name) := by
  rw [emittedDefs]
  induction t.defs with
  | nil => exact List.Sublist.slnil
  | cons e es ih =>
      rw [List.filterMap_cons, List.map_cons]
      split
      · exact ih.cons _
      · next a ha =>
        have hname : a.name = e.name := by
          have hsame := List.find?_some ha
          simp only [Bool.and_eq_true, beq_iff_eq] at hsame
          exact hsame.1
        rw [List.map_cons, hname]
        exact ih.cons_cons _

theorem fileOf_eq_some {s : Setting} {accepted : List Definition} {t : Template} {file : File}
    (h : fileOf s accepted t = some file) : file.path = t.path ∧ file.exprName = exprName t.path ∧
      file.functions.map (·.name) = (emittedDefs accepted t).map fun d => Name.exported d.name := by
  have hnames : file.functions.map (·.name) =
      (emittedDefs accepted t).map fun d => Name.exported d.name := by
    rcases fileOf_spec s accepted t with ⟨hnone, -⟩ | ⟨file', hfile', hall⟩
    · rw [hnone] at h
      cases h
    · obtain rfl := Option.some.inj (hfile'.symm.trans h)
      exact map_eq_of_forall₂ (fun d f hf => hf.name) hall
  unfold fileOf at h
  dsimp only at h
  split at h
  · cases h
  · cases h
    exact ⟨rfl, rfl, hnames⟩

section OfPass

variable {set : TagSet} {sigs : List Signature}

theorem files_ofPass : (Package.ofPass set sigs).files =
    set.templates.filterMap (fileOf (settingOf set sigs) set.defs) := rfl

theorem exprName_ofPass : ∀ f ∈ (Package.ofPass set sigs).files, f.exprName = exprName f.path := by
  intro f hf
  obtain ⟨t, -, ht⟩ := List.mem_filterMap.1 hf
  obtain ⟨hpath, hname, -⟩ := fileOf_eq_some ht
  rw [hname, hpath]

theorem functions_ofPass_sublist :
    ((Package.ofPass set sigs).files.flatMap fun f => f.functions.map (·.name)).Sublist
      ((set.templates.flatMap (·.defs)).map fun d => Name.exported d.name) := by
  rw [files_ofPass]
  induction set.templates with
  | nil => exact List.Sublist.slnil
  | cons t ts ih =>
      rw [List.flatMap_cons, List.map_append, List.filterMap_cons]
      split
      · exact ih.trans (List.sublist_append_right _ _)
      · next file hfile =>
        rw [List.flatMap_cons, (fileOf_eq_some hfile).2.2]
        exact (emittedDefs_sublist _ t).append ih

theorem paths_ofPass_sublist : ((Package.ofPass set sigs).files.map (·.path)).Sublist
    (set.templates.map (·.path)) := by
  rw [files_ofPass]
  induction set.templates with
  | nil => exact List.Sublist.slnil
  | cons t ts ih =>
      rw [List.map_cons, List.filterMap_cons]
      split
      · exact ih.cons _
      · next file hfile =>
        rw [List.map_cons, (fileOf_eq_some hfile).1]
        exact ih.cons_cons _

theorem file_ne_registryFile (path : Bytes) : Name.file path ≠ registryFile := by
  intro h
  have hsuffix : Name.fileEnding <:+ registryFile := ⟨_, h⟩
  exact absurd hsuffix (by decide)

/-- The functions and the files of a package never clash, when the tags and the files of the
templates do not. -/
theorem nodup_ofPass
    (hexported : ((set.templates.flatMap (·.defs)).map fun d => Name.exported d.name).Nodup)
    (hreserved : ∀ d ∈ set.templates.flatMap (·.defs), Name.exported d.name ≠ Name.reserved)
    (hfiles : (set.templates.map fun t => Name.file t.path).Nodup) :
    (Package.ofPass set sigs).functionNames.Nodup ∧ (Package.ofPass set sigs).fileNames.Nodup := by
  constructor
  · refine List.nodup_append.2
      ⟨hexported.sublist functions_ofPass_sublist, List.nodup_singleton _, ?_⟩
    intro x hx y hy
    obtain ⟨d, hd, rfl⟩ := List.mem_map.1 (functions_ofPass_sublist.subset hx)
    rw [List.mem_singleton.1 hy]
    exact hreserved d hd
  · refine List.nodup_append.2 ⟨?_, List.nodup_singleton _, ?_⟩
    · have hpaths : ((Package.ofPass set sigs).files.map (·.path)).Sublist
          (set.templates.map (·.path)) := paths_ofPass_sublist
      have hsublist := hpaths.map Name.file
      rw [List.map_map, List.map_map] at hsublist
      exact hfiles.sublist hsublist
    · intro x hx y hy
      obtain ⟨f, -, rfl⟩ := List.mem_map.1 hx
      rw [List.mem_singleton.1 hy]
      exact file_ne_registryFile f.path

theorem head?_functionNames : ∀ x ∈ (Package.ofPass set sigs).functionNames,
    x.head? ≠ some '_'.toUInt8 := by
  intro x hx
  rcases List.mem_append.1 hx with hx | hx
  · obtain ⟨d, -, rfl⟩ := List.mem_map.1 (functions_ofPass_sublist.subset hx)
    exact Name.exported_head? d.name
  · rw [List.mem_singleton.1 hx]
    decide

end OfPass

/-! ## Accepted passes -/

private theorem eq_map_of_no_error {rs : List (Except Diagnostic GeneratedFile)}
    (h : (rs.filterMap fun | .error d => some d | .ok _ => none) = []) :
    rs = (rs.filterMap fun | .ok f => some f | .error _ => none).map .ok := by
  induction rs with
  | nil => rfl
  | cons r rs ih =>
      cases r with
      | error d => simp at h
      | ok f => simpa using ih (by simpa using h)

theorem allOk_eq_ok {results : List (Except Diagnostic GeneratedFile)} {files : List GeneratedFile}
    (h : Compilation.allOk results = .ok files) : results = files.map .ok := by
  unfold Compilation.allOk at h
  split at h
  · next hnone =>
    cases h
    exact eq_map_of_no_error hnone
  · cases h

theorem names_generate {options : CompileOptions} {set : TagSet} {sigs : List Signature}
    {files : List GeneratedFile} (h : generate options set sigs = .ok files) :
    files.map (·.name) = (Package.ofPass set sigs).fileNames := by
  have hresults : (Package.ofPass set sigs).files.map (Compilation.generateFile options set) ++
      [Compilation.generateRegistry options (Package.ofPass set sigs).registry] = files.map .ok :=
    allOk_eq_ok h
  obtain ⟨templates, registry, rfl, htemplates, hregistry⟩ := List.map_eq_append_iff.1 hresults.symm
  have hpairs : List.Forall₂ (fun f g => Compilation.generateFile options set f = .ok g)
      (Package.ofPass set sigs).files templates := by
    rw [← List.forall₂_map_left_iff (f := Compilation.generateFile options set)
      (R := fun r g => r = .ok g), ← htemplates, List.forall₂_map_left_iff]
    exact List.forall₂_same.2 fun _ _ => rfl
  have hnames : templates.map (·.name) =
      (Package.ofPass set sigs).files.map fun f => Name.file f.path := by
    refine map_eq_of_forall₂ (fun f g hg => ?_) hpairs
    unfold Compilation.generateFile at hg
    split at hg
    · cases hg
      rfl
    · cases hg
  obtain ⟨g, rfl, hg⟩ := List.map_eq_singleton_iff.1 hregistry
  have hname : g.name = registryFile := by
    unfold Compilation.generateRegistry at hg
    split at hg
    · cases hg
      rfl
    · cases hg
  rw [Package.fileNames, List.map_append, hnames, List.map_singleton, hname]

/-- In the package of an accepted pass functions are unique and so are files.  All identifiers are
unique exactly when no two files that have prepared expressions have a common name for them. -/
theorem declared_nodup_iff_exprNames {options : CompileOptions} {cache : ParseCache}
    {files : List SourceFile} {cancelled : Bool} {c : Compiled}
    (h : (run options cache files cancelled).2 = .ok c) :
    let pkg := Package.ofPass c.tags c.signatures
    (options.skipCode = false → c.files.map (·.name) = pkg.fileNames) ∧
      (c.files.map (·.name)).Nodup ∧
      pkg.functionNames.Nodup ∧
      (pkg.declared.Nodup ↔ pkg.exprNames.Nodup) := by
  intro pkg
  have hrun : Compilation.analyze options (files.map (Compilation.parseCached cache)) = .ok c := by
    unfold run at h
    split at h
    · cases h
    · exact h
  let templates := (files.map (Compilation.parseCached cache)).map (·.template)
  rw [Compilation.analyze_eq] at hrun
  split at hrun
  · next hclean =>
    obtain ⟨-, hstages, hfiles⟩ := hclean
    have hbuilt : hasErrors (TagSet.build templates).2 = false := by
      rw [stageReports, Diagnostic.hasErrors_append, Diagnostic.hasErrors_append] at hstages
      exact hstages.1.1
    obtain ⟨-, hexported, hreserved, -⟩ := (TagSet.hasErrors_build templates).1 hbuilt
    have hsorted : ((templates.mergeSort fun a b => Bytes.le a.path b.path).map fun t =>
        Name.file t.path).Nodup := ((List.mergeSort_perm _ _).map _).nodup_iff.2 hfiles
    have htags : c.tags = (placedTags templates).1 ∧ (c.files = [] ∨
        c.files.map (·.name) = pkg.fileNames) ∧
        (options.skipCode = false → c.files.map (·.name) = pkg.fileNames) := by
      split at hrun
      · next hskip =>
        cases hrun
        exact ⟨rfl, .inl rfl, by simp [hskip]⟩
      · split at hrun
        · next generated hgenerate =>
          cases hrun
          exact ⟨rfl, .inr (names_generate hgenerate), fun _ => names_generate hgenerate⟩
        · cases hrun
    obtain ⟨htags, hnames, hcode⟩ := htags
    have htemplates : c.tags.templates =
        templates.mergeSort fun a b => Bytes.le a.path b.path := by rw [htags]; rfl
    rw [← htemplates] at hsorted
    have hdeclarations : TagSet.declarations templates = c.tags.templates.flatMap (·.defs) := by
      rw [htemplates, TagSet.declarations]
    rw [hdeclarations] at hexported hreserved
    obtain ⟨hfunctions, hfileNames⟩ : pkg.functionNames.Nodup ∧ pkg.fileNames.Nodup :=
      nodup_ofPass hexported hreserved hsorted
    refine ⟨hcode, ?_, hfunctions,
      Package.declared_nodup_iff exprName_ofPass hfunctions head?_functionNames⟩
    rcases hnames with hnil | hnames
    · rw [hnil]
      exact List.nodup_nil
    · rw [hnames]
      exact hfileNames
  · cases hrun

/-! ## Paths with a common name -/

def sumTagPage (path tag : Bytes) : SourceFile :=
  ⟨path ++ ".html", path ++ ".html", path, [], "<t:def name=\"" ++ tag ++ "\">\x7b1 + 2\x7d</t:def>"⟩

def sumTag (path tag : Bytes) (column : Nat) (escape : Option Escape) : Definition :=
  ⟨tag, false, ⟨1, 1⟩, [], [.interpolation ⟨1, column⟩
    ⟨"1 + 2", .binary 2 .add (.int 0 1) (.int 4 2)⟩ escape], path ++ ".html", path⟩

def markedPages : List SourceFile := [sumTagPage "a-b" "Card", sumTagPage "a_b" "Box"]

def markedTemplates : List Template := [
  ⟨"a-b", "a-b.html", [sumTag "a-b" "Card" 20 none]⟩,
  ⟨"a_b", "a_b.html", [sumTag "a_b" "Box" 19 none]⟩]

theorem parse_markedPages : markedPages.map (Compilation.parseCached []) =
    markedTemplates.map fun t => ⟨[], t, []⟩ := by
  have hcard : Template.lex (sumTagPage "a-b" "Card").content =
      [.opening 0 "t:def" [⟨7, "name", .quoted 13 "Card"⟩] none false,
        .interpolation 19 (some "1 + 2"), .closing 26 "t:def" false] := by cbv
  have hbox : Template.lex (sumTagPage "a_b" "Box").content =
      [.opening 0 "t:def" [⟨7, "name", .quoted 13 "Box"⟩] none false,
        .interpolation 18 (some "1 + 2"), .closing 25 "t:def" false] := by cbv
  have hdash : Compilation.parseFile (sumTagPage "a-b" "Card") =
      ⟨[], ⟨"a-b", "a-b.html", [sumTag "a-b" "Card" 20 none]⟩, []⟩ := by
    rw [Compilation.parseFile, Template.parse, hcard]
    simp only [Template.run, Template.step, Compilation.parse_sum]
    cbv
  have hscore : Compilation.parseFile (sumTagPage "a_b" "Box") =
      ⟨[], ⟨"a_b", "a_b.html", [sumTag "a_b" "Box" 19 none]⟩, []⟩ := by
    rw [Compilation.parseFile, Template.parse, hbox]
    simp only [Template.run, Template.step, Compilation.parse_sum]
    cbv
  show [Compilation.parseFile _, Compilation.parseFile _] = _
  rw [hdash, hscore]
  rfl

theorem placed_markedTemplates : placedTags markedTemplates =
    (⟨markedTemplates, [sumTag "a_b" "Box" 19 (some .html), sumTag "a-b" "Card" 20 (some .html)],
      [("Box", []), ("Card", [])]⟩, [⟨"Box", []⟩, ⟨"Card", []⟩]) := by
  cbv

theorem run_markedPages : ∃ c, (run ⟨"views", ".html", false⟩ [] markedPages false).2 = .ok c ∧
    Package.ofPass c.tags c.signatures =
      Package.ofPass (placedTags markedTemplates).1 (placedTags markedTemplates).2 := by
  have hsources : hasErrors ((markedTemplates.map fun t => (⟨[], t, []⟩ : ParsedFile)).flatMap
      (·.reports)) = false := rfl
  have htemplates : (markedTemplates.map fun t => (⟨[], t, []⟩ : ParsedFile)).map (·.template) =
      markedTemplates := rfl
  have hstages : hasErrors (stageReports markedTemplates) = false := by cbv
  have hcode : (generate ⟨"views", ".html", false⟩ (placedTags markedTemplates).1
      (placedTags markedTemplates).2).toOption.isSome = true := by
    rw [placed_markedTemplates]
    decide +kernel
  show ∃ c, Compilation.analyze _ (markedPages.map (Compilation.parseCached [])) = .ok c ∧ _
  rw [parse_markedPages, Compilation.analyze_eq, htemplates,
    if_pos ⟨hsources, hstages, by decide⟩, if_neg Bool.false_ne_true]
  cases hgenerate : generate ⟨"views", ".html", false⟩ (placedTags markedTemplates).1
      (placedTags markedTemplates).2 with
  | ok code => exact ⟨_, rfl, rfl⟩
  | error reports =>
      rw [hgenerate] at hcode
      cases hcode

/-- The functions of the two pages and their files do not clash. -/
theorem functions_nodup_markedPages :
    ∃ c, (run ⟨"views", ".html", false⟩ [] markedPages false).2 = .ok c ∧
      (c.files.map (·.name)).Nodup ∧ (Package.ofPass c.tags c.signatures).functionNames.Nodup := by
  obtain ⟨c, hrun, -⟩ := run_markedPages
  obtain ⟨-, hfiles, hfunctions, -⟩ := declared_nodup_iff_exprNames hrun
  exact ⟨c, hrun, hfiles, hfunctions⟩

/-- Both files declare one variable. -/
theorem declared_clash_markedPages :
    ∃ c, (run ⟨"views", ".html", false⟩ [] markedPages false).2 = .ok c ∧
      (Package.ofPass c.tags c.signatures).declared =
        ["Card", "Box", "Registry", "_a_b_expr0", "_a_b_expr0"] ∧
      ¬ (Package.ofPass c.tags c.signatures).declared.Nodup := by
  obtain ⟨c, hrun, hpackage⟩ := run_markedPages
  have hdeclared : (Package.ofPass c.tags c.signatures).declared =
      ["Card", "Box", "Registry", "_a_b_expr0", "_a_b_expr0"] := by
    rw [hpackage, placed_markedTemplates]
    decide +kernel
  refine ⟨c, hrun, hdeclared, ?_⟩
  rw [hdeclared]
  decide

end Code

end TagLoom

import Mathlib.Data.List.Induction
import Mathlib.Data.List.Nodup
import TagLoom.Compilation
import TagLoom.Proofs.Diagnostic.Order

/-!
# Outcomes of a pass

A pass gives a result exactly when no stage reports an error, no two templates generate the same
file and the code can be laid out; otherwise it gives the sorted reports, an error among them.
That reports which only follow from a broken file are left out decides neither way.
-/

namespace TagLoom.Compilation

open Diagnostic (hasErrors hasErrors_append hasErrors_eq_false IsStableSort)

/-! ## Generated files of one name -/

def collision (first t : Template) : Diagnostic :=
  .error .generation t.file 0 0 ("templates " ++ Bytes.quote first.path ++ " and " ++
    Bytes.quote t.path ++ " both generate " ++ Name.file t.path)

def firstOf? (ts : List Template) (t : Template) : Option Template :=
  ts.find? fun u => Name.file u.path == Name.file t.path

theorem foldl_collide_concat (ts : List Template) (t : Template) :
    (ts ++ [t]).foldl collide ⟨[], []⟩ = collide (ts.foldl collide ⟨[], []⟩) t := by
  rw [List.foldl_append]
  rfl

theorem find?_seen (ts : List Template) (t : Template) :
    (ts.foldl collide ⟨[], []⟩).seen.find? (·.1 == Name.file t.path) =
      (firstOf? ts t).map fun u => (Name.file u.path, u.path) := by
  induction ts using List.reverseRecOn generalizing t with
  | nil => rfl
  | append_singleton ts u ih =>
      have hconcat : firstOf? (ts ++ [u]) t =
          (firstOf? ts t).or (if Name.file u.path == Name.file t.path then some u else none) := by
        rw [firstOf?, List.find?_append, List.find?_singleton]
        rfl
      rw [foldl_collide_concat, collide, ih, hconcat]
      cases hu : firstOf? ts u with
      | some first =>
          -- the file of `u` is taken, so whatever generates it is found among `ts`
          have hfirst : Name.file first.path = Name.file u.path := by
            simpa using List.find?_some hu
          cases ht : firstOf? ts t with
          | some v =>
              rw [Option.map_some, Option.some_or, ← ht]
              exact ih t
          | none =>
              have hother := List.find?_eq_none.1 ht first (List.mem_of_find?_eq_some hu)
              rw [hfirst] at hother
              rw [if_neg hother, Option.or_none, ← ht]
              exact ih t
      | none =>
          simp only [Option.map_none, List.find?_append, ih, List.find?_singleton]
          cases ht : firstOf? ts t with
          | some v => rfl
          | none =>
              cases hsame : Name.file u.path == Name.file t.path <;> rfl

theorem collisions_concat (ts : List Template) (t : Template) :
    collisions (ts ++ [t]) =
      collisions ts ++ ((firstOf? ts t).map fun first => collision first t).toList := by
  rw [collisions, foldl_collide_concat, collide, find?_seen]
  cases firstOf? ts t with
  | some first => rfl
  | none => simp [collisions]

theorem collisions_isError (ts : List Template) : ∀ d ∈ collisions ts, d.isError = true := by
  induction ts using List.reverseRecOn with
  | nil => exact fun _ h => (nomatch h)
  | append_singleton ts t ih =>
      rw [collisions_concat]
      refine List.forall_mem_append.2 ⟨ih, fun d hd => ?_⟩
      obtain ⟨first, -, rfl⟩ := Option.map_eq_some_iff.1 (Option.mem_toList.1 hd)
      rfl

theorem collisions_eq_nil_iff (ts : List Template) :
    collisions ts = [] ↔ (ts.map fun t => Name.file t.path).Nodup := by
  induction ts using List.reverseRecOn with
  | nil => simp [collisions]
  | append_singleton ts t ih =>
      have hnone : firstOf? ts t = none ↔ Name.file t.path ∉ ts.map fun t => Name.file t.path := by
        simp [firstOf?, List.find?_eq_none]
      rw [collisions_concat, List.append_eq_nil_iff, ih, List.map_append, List.map_singleton,
        ← List.concat_eq_append, List.nodup_concat, ← hnone]
      cases firstOf? ts t <;> simp

theorem hasErrors_collisions (ts : List Template) :
    hasErrors (collisions ts) = false ↔ (ts.map fun t => Name.file t.path).Nodup := by
  rw [← collisions_eq_nil_iff]
  refine ⟨Diagnostic.eq_nil_of_not_hasErrors (collisions_isError ts), fun h => ?_⟩
  rw [h]
  rfl

/-! ## Generated code -/

theorem generateFile_isError {options : CompileOptions} {tags : TagSet} {f : Code.File}
    {d : Diagnostic} (h : generateFile options tags f = .error d) : d.isError = true := by
  unfold generateFile at h
  split at h
  · cases h
  · cases h
    rfl

theorem generateRegistry_isError {options : CompileOptions} {r : Code.Registry} {d : Diagnostic}
    (h : generateRegistry options r = .error d) : d.isError = true := by
  unfold generateRegistry at h
  split at h
  · cases h
  · cases h
    rfl

theorem generate_error {options : CompileOptions} {tags : TagSet} {sigs : List Signature}
    {ds : List Diagnostic} (h : generate options tags sigs = .error ds) :
    ds ≠ [] ∧ ∀ d ∈ ds, d.isError = true := by
  unfold generate allOk at h
  split at h
  rename_i files registry hemit
  split at h
  · cases h
  · rename_i hne
    cases h
    refine ⟨hne, fun d hd => ?_⟩
    obtain ⟨r, hr, hrd⟩ := List.mem_filterMap.1 hd
    have hrd : r = .error d := by
      cases r with
      | error e => exact congrArg _ (Option.some.inj hrd)
      | ok f => cases hrd
    rcases List.mem_append.1 hr with hr | hr
    · obtain ⟨f, -, hf⟩ := List.mem_map.1 hr
      exact generateFile_isError (hf.trans hrd)
    · exact generateRegistry_isError ((List.mem_singleton.1 hr).symm.trans hrd)

/-! ## Reports that are left out -/

theorem withoutFiles_of_not_hasErrors {sources : List Diagnostic} (h : hasErrors sources = false)
    (ds : List Diagnostic) : withoutFiles ds ((Diagnostic.errors sources).map (·.file)) = ds := by
  have herrors : Diagnostic.errors sources = [] := by
    rw [Diagnostic.errors, List.filter_eq_nil_iff]
    intro d hd
    rw [hasErrors_eq_false.1 h d hd]
    exact Bool.false_ne_true
  simp [withoutFiles, herrors]

/-- Whether a report is on a file that has an error in its source. -/
def followsOn (sources : List Diagnostic) (d : Diagnostic) : Bool :=
  sources.any fun r => r.isError && r.file == d.file

theorem withoutFiles_eq_filter (ds sources : List Diagnostic) :
    withoutFiles ds ((Diagnostic.errors sources).map (·.file)) =
      ds.filter fun d => !followsOn sources d := by
  refine List.filter_congr fun d _ => ?_
  rw [followsOn, Diagnostic.errors, Bool.eq_iff_iff]
  simp

theorem withoutFiles_append (ds es : List Diagnostic) (broken : List Bytes) :
    withoutFiles (ds ++ es) broken = withoutFiles ds broken ++ withoutFiles es broken :=
  List.filter_append ..

/-- The reports of the stages after parsing, none left out. -/
def stageReports (templates : List Template) : List Diagnostic :=
  let built := TagSet.build templates
  let inferred := Inference.infer built.1
  built.2 ++ inferred.2 ++ (Placement.place built.1 inferred.1).2

/-- What a pass hands to the generation of code. -/
def placedTags (templates : List Template) : TagSet × List Signature :=
  let tags := (TagSet.build templates).1
  let sigs := (Inference.infer tags).1
  ((Placement.place tags sigs).1, sigs)

/-- The pass after parsing goes by all reports of the sources and of the stages: when they hold no
error and no files collide, by the code. -/
theorem analyze_eq (options : CompileOptions) (parsed : List ParsedFile) :
    let sources := parsed.flatMap (·.reports)
    let templates := parsed.map (·.template)
    let stages := stageReports templates
    let placed := placedTags templates
    let shown := sources ++ withoutFiles stages ((Diagnostic.errors sources).map (·.file)) ++
      collisions templates
    analyze options parsed =
      if hasErrors sources = false ∧ hasErrors stages = false ∧
          (templates.map fun t => Name.file t.path).Nodup then
        if options.skipCode = true then
          .ok ⟨placed.1, placed.2, [], Diagnostic.warnings (sources ++ stages)⟩
        else match generate options placed.1 placed.2 with
          | .ok files => .ok ⟨placed.1, placed.2, files, Diagnostic.warnings (sources ++ stages)⟩
          | .error problems => .error (Diagnostic.sort (shown ++ problems))
      else .error (Diagnostic.sort shown) := by
  intro sources templates stages placed shown
  have hanalyze : analyze options parsed =
      if hasErrors shown = true then .error (Diagnostic.sort shown)
      else if options.skipCode = true then
        .ok ⟨placed.1, placed.2, [], Diagnostic.warnings shown⟩
      else match generate options placed.1 placed.2 with
        | .ok files => .ok ⟨placed.1, placed.2, files, Diagnostic.warnings shown⟩
        | .error problems => .error (Diagnostic.sort (shown ++ problems)) := by
    simp only [shown, stages, stageReports, withoutFiles_append, ← List.append_assoc]
    rfl
  have hclean : hasErrors shown = false ↔ hasErrors sources = false ∧ hasErrors stages = false ∧
      (templates.map fun t => Name.file t.path).Nodup := by
    rw [hasErrors_append, hasErrors_append, hasErrors_collisions, and_assoc]
    refine and_congr_right fun hsources => ?_
    rw [withoutFiles_of_not_hasErrors hsources]
  rw [hanalyze]
  by_cases h : hasErrors shown = false
  · obtain ⟨hsources, hstages, hnodup⟩ := hclean.1 h
    have hshown : shown = sources ++ stages := by
      rw [show shown = sources ++ withoutFiles stages _ ++ collisions templates from rfl,
        withoutFiles_of_not_hasErrors hsources, (collisions_eq_nil_iff templates).2 hnodup,
        List.append_nil]
    have hclear : hasErrors sources = false ∧ hasErrors stages = false ∧
        (templates.map fun t => Name.file t.path).Nodup := ⟨hsources, hstages, hnodup⟩
    rw [if_neg (by simp [h]), if_pos hclear, ← hshown]
  · rw [if_pos (by simpa using h), if_neg fun hc => h (hclean.2 hc)]

/-- A pass that is not cancelled gives a result exactly when no source and no stage reports an
error, no two templates generate one file, and code that is asked for can be laid out.  The result
holds all warnings.  Otherwise the pass gives the reports on the sources, those of the stages on
files that have no error of their own, the collisions and the problems of the code, sorted by place
and with an error among them. -/
theorem run_ok_iff_and_outcome (options : CompileOptions) (cache : ParseCache)
    (files : List SourceFile) :
    let parsed := files.map (parseCached cache)
    let templates := parsed.map (·.template)
    let sources := parsed.flatMap (·.reports)
    let stages := stageReports templates
    let (tags, sigs) := placedTags templates
    let clean := (∀ p ∈ parsed, hasErrors p.reports = false) ∧ hasErrors stages = false ∧
      (templates.map fun t => Name.file t.path).Nodup
    let outcome := (run options cache files false).2
    ((∃ c, outcome = .ok c) ↔
      clean ∧ (options.skipCode = false → ∃ code, generate options tags sigs = .ok code)) ∧
    (∀ c, outcome = .ok c →
      c.tags = tags ∧ c.signatures = sigs ∧ c.warnings = Diagnostic.warnings (sources ++ stages) ∧
      if options.skipCode = true then c.files = [] else generate options tags sigs = .ok c.files) ∧
    (∀ ds, outcome = .error ds → hasErrors ds = true ∧ ∃ problems,
      IsStableSort (sources ++ stages.filter (fun d => !followsOn sources d) ++
        collisions templates ++ problems) ds ∧
      (¬ clean ∧ problems = [] ∨
        clean ∧ options.skipCode = false ∧ generate options tags sigs = .error problems)) := by
  intro parsed templates sources stages
  have hrun : (run options cache files false).2 = analyze options parsed := rfl
  have hsources : hasErrors sources = false ↔ ∀ p ∈ parsed, hasErrors p.reports = false :=
    Diagnostic.hasErrors_flatMap
  have hcollisions := hasErrors_collisions templates
  have hanalyze := analyze_eq options parsed
  simp only [hrun]
  rcases hplaced : placedTags templates with ⟨tags, sigs⟩
  dsimp only at hanalyze ⊢
  rw [withoutFiles_eq_filter, hplaced] at hanalyze
  rw [hanalyze, ← hsources]
  by_cases hclean : hasErrors sources = false ∧ hasErrors stages = false ∧
      (templates.map fun t => Name.file t.path).Nodup
  · rw [if_pos hclean]
    by_cases hskip : options.skipCode = true
    · rw [if_pos hskip]
      refine ⟨by simp [hskip, hclean], fun c hc => ?_, fun ds hds => (nomatch hds)⟩
      cases hc
      exact ⟨rfl, rfl, rfl, by rw [if_pos hskip]⟩
    · rw [if_neg hskip]
      have hskip : options.skipCode = false := by simpa using hskip
      cases hcode : generate options tags sigs with
      | ok code =>
          refine ⟨by simp [hclean], fun c hc => ?_, fun ds hds => (nomatch hds)⟩
          cases hc
          exact ⟨rfl, rfl, rfl, by simp [hskip]⟩
      | error problems =>
          refine ⟨by simp [hskip], fun c hc => (nomatch hc), fun ds hds => ?_⟩
          cases hds
          have hsort := Diagnostic.isStableSort_sort (sources ++
            stages.filter (fun d => !followsOn sources d) ++ collisions templates ++ problems)
          obtain ⟨hne, hproblems⟩ := generate_error hcode
          obtain ⟨problem, hproblem⟩ := List.exists_mem_of_ne_nil problems hne
          refine ⟨?_, problems, hsort, Or.inr ⟨hclean, hskip, rfl⟩⟩
          rw [Diagnostic.hasErrors_perm hsort.perm]
          exact List.any_eq_true.2 ⟨problem, List.mem_append_right _ hproblem,
            hproblems problem hproblem⟩
  · rw [if_neg hclean]
    refine ⟨by simp [hclean], fun c hc => (nomatch hc), fun ds hds => ?_⟩
    cases hds
    have hsort := Diagnostic.isStableSort_sort (sources ++
      stages.filter (fun d => !followsOn sources d) ++ collisions templates)
    refine ⟨?_, [], by rwa [List.append_nil], Or.inl ⟨hclean, rfl⟩⟩
    rw [Diagnostic.hasErrors_perm hsort.perm]
    by_contra hnone
    -- a file with an error of its own keeps that error, so leaving out its other reports is no way
    -- to a list without errors
    rw [Bool.not_eq_true, hasErrors_append, hasErrors_append, hcollisions] at hnone
    obtain ⟨⟨hs, hshown⟩, hnodup⟩ := hnone
    rw [← withoutFiles_eq_filter, withoutFiles_of_not_hasErrors hs] at hshown
    exact hclean ⟨hs, hshown, hnodup⟩

end TagLoom.Compilation

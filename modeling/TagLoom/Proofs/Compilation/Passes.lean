import Mathlib.Data.List.Induction
import Mathlib.Data.List.Nodup
import TagLoom.Compilation
import TagLoom.Proofs.Compilation.Outcome

/-!
# What a pass depends on

What is kept between passes saves parsing and nothing else: as long as path and checksum tell files
apart, each pass of a history gives what it gives without a cache.

A pass over files with names of their own gives the same result, or the same reports, in whatever
order it is given the files.  The stages after parsing see templates sorted by path, and sorting
brings the reports on the sources, each on its own file, into one order.
-/

namespace TagLoom

namespace ParseCache

def paths (cache : ParseCache) : List Bytes := cache.map (·.1)

theorem ofPass_concat (files : List (SourceFile × ParsedFile)) (f : SourceFile) (p : ParsedFile) :
    ofPass (files ++ [(f, p)]) = (ofPass files).filter (·.1 != f.path) ++ [(f.path, p)] := by
  rw [ofPass, List.foldl_append]
  rfl

theorem mem_of_mem_ofPass {files : List (SourceFile × ParsedFile)} {entry : Bytes × ParsedFile}
    (h : entry ∈ ofPass files) : ∃ f, (f, entry.2) ∈ files ∧ f.path = entry.1 := by
  induction files using List.reverseRecOn with
  | nil => cases h
  | append_singleton files file ih =>
      obtain ⟨f, p⟩ := file
      rw [ofPass_concat, List.mem_append, List.mem_filter, List.mem_singleton] at h
      rcases h with ⟨h, -⟩ | rfl
      · obtain ⟨g, hg, hpath⟩ := ih h
        exact ⟨g, List.mem_append_left _ hg, hpath⟩
      · exact ⟨f, List.mem_append_right _ (List.mem_singleton.2 rfl), rfl⟩

theorem mem_paths_ofPass (files : List (SourceFile × ParsedFile)) (path : Bytes) :
    path ∈ (ofPass files).paths ↔ path ∈ files.map fun f => f.1.path := by
  induction files using List.reverseRecOn with
  | nil => simp [ofPass, paths]
  | append_singleton files file ih =>
      obtain ⟨f, p⟩ := file
      rw [paths, List.mem_map] at ih
      rw [ofPass_concat, paths, List.map_append, List.mem_append, List.map_append, List.mem_append,
        ← ih]
      by_cases hpath : path = f.path
      · simp [hpath]
      · simp only [List.mem_map, List.mem_filter, List.mem_singleton, exists_eq_left, bne_iff_ne]
        grind

theorem nodup_paths_ofPass (files : List (SourceFile × ParsedFile)) : (ofPass files).paths.Nodup := by
  induction files using List.reverseRecOn with
  | nil => simp [ofPass, paths]
  | append_singleton files file ih =>
      obtain ⟨f, p⟩ := file
      rw [ofPass_concat, paths, List.map_append, List.map_singleton, ← List.concat_eq_append,
        List.nodup_concat]
      refine ⟨?_, (List.filter_sublist.map _).nodup ih⟩
      simp

def HoldsOnly (cache : ParseCache) (files : List SourceFile) : Prop :=
  ∀ entry ∈ cache, ∃ f ∈ files, f.path = entry.1 ∧ entry.2 = Compilation.parseFile f

end ParseCache

namespace Compilation

/-- Path and checksum, when there is one, tell the files of a history apart. -/
def ToldApart (files : List SourceFile) : Prop :=
  ∀ f ∈ files, ∀ g ∈ files, f.path = g.path → f.hash = g.hash → f.hash ≠ [] →
    f.display = g.display ∧ f.logical = g.logical ∧ f.content = g.content

theorem parseCached_cases {cache : ParseCache} {files : List SourceFile}
    (hcache : cache.HoldsOnly files) (f : SourceFile) :
    parseCached cache f = parseFile f ∨ ∃ g ∈ files, g.path = f.path ∧ g.hash = f.hash ∧
      f.hash ≠ [] ∧ parseCached cache f = parseFile g := by
  unfold parseCached
  split
  · rename_i p hp
    split
    · rename_i hhash
      have hne : f.hash ≠ [] := by
        intro h
        simp [h] at hp
      rw [if_neg (by simpa using hne), ParseCache.get?, Option.map_eq_some_iff] at hp
      obtain ⟨entry, hentry, rfl⟩ := hp
      have hpath : entry.1 = f.path := by
        simpa using List.find?_some hentry
      obtain ⟨g, hg, hgpath, hparsed⟩ := hcache entry (List.mem_of_find?_eq_some hentry)
      rw [hparsed] at hhash ⊢
      exact Or.inr ⟨g, hg, hgpath.trans hpath, beq_iff_eq.1 hhash, hne, rfl⟩
    · exact Or.inl rfl
  · exact Or.inl rfl

theorem parseCached_eq_parseFile {cache : ParseCache} {files : List SourceFile}
    (hcache : cache.HoldsOnly files) (hfiles : ToldApart files) {f : SourceFile} (hf : f ∈ files) :
    parseCached cache f = parseFile f := by
  rcases parseCached_cases hcache f with hparsed | ⟨g, hg, hpath, hhash, hne, hparsed⟩
  · exact hparsed
  · obtain ⟨hdisplay, hlogical, hcontent⟩ := hfiles g hg f hf hpath hhash (hhash ▸ hne)
    rw [hparsed, parseFile, parseFile, hdisplay, hlogical, hcontent, hhash]

/-! ## Histories -/

/-- One call of a compiler: the files, and whether the call was given up beforehand. -/
structure Pass where
  files : List SourceFile
  cancelled : Bool

/-- Whether a pass does not get to parse its files. -/
def Pass.isGivenUp (p : Pass) : Bool := p.cancelled && !p.files.isEmpty

/-- What a compiler keeps after some passes, starting with nothing. -/
def cacheAfter (options : CompileOptions) (passes : List Pass) : ParseCache :=
  passes.foldl (fun cache p => (run options cache p.files p.cancelled).1) []

def filesOf (passes : List Pass) : List SourceFile := passes.flatMap (·.files)

theorem run_of_isGivenUp (options : CompileOptions) (cache : ParseCache) {p : Pass}
    (h : p.isGivenUp = true) : run options cache p.files p.cancelled = (cache, .error [givenUp]) :=
  if_pos h

theorem run_of_not_isGivenUp (options : CompileOptions) (cache : ParseCache) {p : Pass}
    (h : p.isGivenUp = false) :
    run options cache p.files p.cancelled =
      (ParseCache.ofPass (p.files.map fun f => (f, parseCached cache f)),
        analyze options (p.files.map (parseCached cache))) := by
  rw [List.map_prod_left_eq_zip]
  exact if_neg (Bool.eq_false_iff.1 h)

theorem holdsOnly_run {options : CompileOptions} {cache : ParseCache} {files : List SourceFile}
    (hcache : cache.HoldsOnly files) {p : Pass} (hp : ∀ f ∈ p.files, f ∈ files) :
    (run options cache p.files p.cancelled).1.HoldsOnly files := by
  cases h : p.isGivenUp with
  | true => rwa [run_of_isGivenUp options cache h]
  | false =>
      rw [run_of_not_isGivenUp options cache h]
      intro entry hentry
      obtain ⟨f, hf, hpath⟩ := ParseCache.mem_of_mem_ofPass hentry
      obtain ⟨g, hg, hgf⟩ := List.mem_map.1 hf
      obtain ⟨rfl, hentry⟩ := Prod.mk.inj hgf
      rcases parseCached_cases hcache g with hparsed | ⟨u, hu, hupath, -, -, hparsed⟩
      · exact ⟨g, hp g hg, hpath, hentry.symm.trans hparsed⟩
      · exact ⟨u, hu, hupath.trans hpath, hentry.symm.trans hparsed⟩

theorem holdsOnly_cacheAfter (options : CompileOptions) {passes : List Pass}
    {files : List SourceFile} (hpasses : ∀ p ∈ passes, ∀ f ∈ p.files, f ∈ files) :
    (cacheAfter options passes).HoldsOnly files := by
  induction passes using List.reverseRecOn with
  | nil => exact fun _ h => (nomatch h)
  | append_singleton passes p ih =>
      rw [cacheAfter, List.foldl_append]
      exact holdsOnly_run (ih fun q hq => hpasses q (List.mem_append_left _ hq))
        (hpasses p (List.mem_append_right _ (List.mem_singleton.2 rfl)))

theorem run_eq_fresh {options : CompileOptions} {cache : ParseCache} {files : List SourceFile}
    (hcache : cache.HoldsOnly files) (hfiles : ToldApart files) {p : Pass}
    (hp : ∀ f ∈ p.files, f ∈ files) :
    (run options cache p.files p.cancelled).2 = (run options [] p.files p.cancelled).2 := by
  cases h : p.isGivenUp with
  | true => rw [run_of_isGivenUp options cache h, run_of_isGivenUp options [] h]
  | false =>
      rw [run_of_not_isGivenUp options cache h, run_of_not_isGivenUp options [] h]
      have hempty : ParseCache.HoldsOnly [] files := fun _ h => (nomatch h)
      have hparsed : p.files.map (parseCached cache) = p.files.map (parseCached []) :=
        List.map_congr_left fun f hf =>
          (parseCached_eq_parseFile hcache hfiles (hp f hf)).trans
            (parseCached_eq_parseFile hempty hfiles (hp f hf)).symm
      rw [hparsed]

/-- In any history of passes on one compiler in which path and checksum tell the files apart, each
pass gives what it gives on a fresh compiler.  One that parses its files leaves exactly their paths
in the cache, each once; one that is given up beforehand gives no result but a single error, and
leaves the cache as it was. -/
theorem pass_eq_fresh_and_cache (options : CompileOptions) (passes : List Pass)
    (hfiles : ToldApart (filesOf passes)) :
    ∀ earlier p later, passes = earlier ++ p :: later →
      let cache := cacheAfter options earlier
      let outcome := run options cache p.files p.cancelled
      outcome.2 = (run options [] p.files p.cancelled).2 ∧
      (p.isGivenUp = false → outcome.1.paths.Nodup ∧
        ∀ path, path ∈ outcome.1.paths ↔ ∃ f ∈ p.files, f.path = path) ∧
      (p.isGivenUp = true → outcome.1 = cache ∧
        ∃ d : Diagnostic, d.isError = true ∧ outcome.2 = .error [d]) := by
  intro earlier p later hsplit cache outcome
  have hmem (q : Pass) (hq : q ∈ passes) : ∀ f ∈ q.files, f ∈ filesOf passes :=
    fun f hf => List.mem_flatMap.2 ⟨q, hq, hf⟩
  have hp : p ∈ passes := by simp [hsplit]
  have hcache : cache.HoldsOnly (filesOf passes) :=
    holdsOnly_cacheAfter options fun q hq => hmem q (by simp [hsplit, hq])
  refine ⟨run_eq_fresh hcache hfiles (hmem p hp), fun h => ?_, fun h => ?_⟩
  · have houtcome : outcome = _ := run_of_not_isGivenUp options cache h
    rw [houtcome]
    refine ⟨ParseCache.nodup_paths_ofPass _, fun path => ?_⟩
    rw [ParseCache.mem_paths_ofPass]
    simp
  · have houtcome : outcome = _ := run_of_isGivenUp options cache h
    rw [houtcome]
    exact ⟨rfl, givenUp, rfl, rfl⟩

def changedPage : List Pass := [
  ⟨[⟨"a.html", "a.html", "a", "1", "<p>"⟩], false⟩,
  ⟨[⟨"a.html", "a.html", "a", [], "<b>"⟩, ⟨"c.html", "c.html", "c", "1", "\x7bx"⟩], false⟩,
  ⟨[⟨"a.html", "a.html", "a", "1", "<p>"⟩], true⟩]

theorem pass_eq_fresh_and_cache_changedPage :
    ToldApart (filesOf changedPage) ∧
    (run default (cacheAfter default (changedPage.take 2)) [⟨"a.html", "a.html", "a", "1", "<p>"⟩]
      true).1 = cacheAfter default (changedPage.take 2) := by
  have hfiles : ToldApart (filesOf changedPage) := by
    unfold ToldApart
    decide
  have hpass := pass_eq_fresh_and_cache default changedPage hfiles (changedPage.take 2)
    ⟨[⟨"a.html", "a.html", "a", "1", "<p>"⟩], true⟩ [] rfl
  exact ⟨hfiles, (hpass.2.2 rfl).1⟩

end Compilation

namespace TagSet

theorem build_perm {ts us : List Template} (hperm : ts.Perm us)
    (hpaths : (ts.map (·.path)).Nodup) : build ts = build us := by
  unfold build
  rw [Bytes.mergeSort_eq_of_perm (·.path) hperm hpaths]

end TagSet

namespace Compilation

/-! ## After parsing -/

def OwnReports (p : ParsedFile) : Prop :=
  ∀ d ∈ p.reports, d.isError = true ∧ d.file = p.template.file

theorem ownReports_parseFile (f : SourceFile) : OwnReports (parseFile f) := by
  intro d hd
  obtain ⟨⟨pos, fault⟩, -, rfl⟩ := List.mem_map.1 hd
  constructor <;> rfl

theorem warnings_sources {parsed : List ParsedFile} (h : ∀ p ∈ parsed, OwnReports p) :
    Diagnostic.warnings (parsed.flatMap (·.reports)) = [] := by
  rw [Diagnostic.warnings, List.filter_eq_nil_iff]
  intro d hd
  obtain ⟨p, hp, hd⟩ := List.mem_flatMap.1 hd
  have herror := (h p hp d hd).1
  rw [Diagnostic.isError, beq_iff_eq] at herror
  simp [herror]

theorem analyze_perm (options : CompileOptions) {parsed parsed' : List ParsedFile}
    (hperm : parsed.Perm parsed')
    (hpaths : (parsed.map (·.template.path)).Nodup)
    (hfiles : (parsed.map (·.template.file)).Nodup)
    (hnames : (parsed.map fun p => Name.file p.template.path).Nodup)
    (hreports : ∀ p ∈ parsed, OwnReports p) :
    analyze options parsed = analyze options parsed' := by
  have hsources := hperm.flatMap_right (·.reports)
  have htemplates := hperm.map (·.template)
  have hbuild := TagSet.build_perm htemplates (by rwa [List.map_map])
  have hstages : stageReports (parsed'.map (·.template)) = stageReports (parsed.map (·.template)) := by
    rw [stageReports, stageReports, hbuild]
  have hplaced : placedTags (parsed'.map (·.template)) = placedTags (parsed.map (·.template)) := by
    rw [placedTags, placedTags, hbuild]
  have hnodup : ((parsed.map (·.template)).map fun t => Name.file t.path).Nodup := by
    rwa [List.map_map]
  have hnodup' := (htemplates.map fun t => Name.file t.path).nodup_iff.1 hnodup
  have herrors := Diagnostic.hasErrors_perm hsources
  have hfollows (d : Diagnostic) : followsOn (parsed.flatMap (·.reports)) d =
      followsOn (parsed'.flatMap (·.reports)) d := hsources.any_eq
  have hwarnings (rest : List Diagnostic) :
      Diagnostic.warnings (parsed.flatMap (·.reports) ++ rest) =
        Diagnostic.warnings (parsed'.flatMap (·.reports) ++ rest) := by
    have hreports' : ∀ p ∈ parsed', OwnReports p := fun p hp => hreports p (hperm.mem_iff.2 hp)
    have hnone := warnings_sources hreports
    have hnone' := warnings_sources hreports'
    rw [Diagnostic.warnings] at hnone hnone' ⊢
    rw [List.filter_append, hnone, Diagnostic.warnings, List.filter_append, hnone']
  have hsort (rest : List Diagnostic) :
      Diagnostic.sort (parsed.flatMap (·.reports) ++ rest) =
        Diagnostic.sort (parsed'.flatMap (·.reports) ++ rest) := by
    apply Diagnostic.sort_congr
    intro d
    rw [List.filter_append, List.filter_append, Diagnostic.filter_flatMap_perm hperm hfiles
      fun p hp r hr => (hreports p hp r hr).2]
  have hanalyze := analyze_eq options parsed
  have hanalyze' := analyze_eq options parsed'
  simp only [withoutFiles_eq_filter, (collisions_eq_nil_iff _).2 hnodup,
    (collisions_eq_nil_iff _).2 hnodup', List.append_nil, List.append_assoc, hnodup, hnodup']
    at hanalyze hanalyze'
  rw [hanalyze, hanalyze', hstages, hplaced]
  simp only [herrors, hfollows, hwarnings, hsort]

/-! ## Files -/

/-- Of a file that is taken from a cache the names are its own, unless path and checksum were those
of a file with other names. -/
theorem names_parseCached {cache : ParseCache} {files : List SourceFile}
    (hcache : cache.HoldsOnly files) {f : SourceFile}
    (hf : ∀ g ∈ files, g.path = f.path → g.hash = f.hash → f.hash ≠ [] →
      g.display = f.display ∧ g.logical = f.logical) :
    (parseCached cache f).template.path = f.logical ∧
      (parseCached cache f).template.file = f.display ∧ OwnReports (parseCached cache f) := by
  rcases parseCached_cases hcache f with hparsed | ⟨g, hg, hpath, hhash, hne, hparsed⟩
  · rw [hparsed]
    exact ⟨rfl, rfl, ownReports_parseFile f⟩
  · obtain ⟨hdisplay, hlogical⟩ := hf g hg hpath hhash hne
    rw [hparsed, ← hdisplay, ← hlogical]
    exact ⟨rfl, rfl, ownReports_parseFile g⟩

theorem run_perm_of_holdsOnly (options : CompileOptions) {cache : ParseCache}
    {files files' earlier : List SourceFile} (hcache : cache.HoldsOnly earlier)
    (hperm : files.Perm files')
    (hlogical : (files.map (·.logical)).Nodup)
    (hdisplay : (files.map (·.display)).Nodup)
    (hgenerated : (files.map fun f => Name.file f.logical).Nodup)
    (hearlier : ∀ f ∈ files, ∀ g ∈ earlier, g.path = f.path → g.hash = f.hash → f.hash ≠ [] →
      g.display = f.display ∧ g.logical = f.logical) (cancelled : Bool) :
    (run options cache files cancelled).2 = (run options cache files' cancelled).2 := by
  have hempty : files.isEmpty = files'.isEmpty := by
    rw [Bool.eq_iff_iff, List.isEmpty_iff_length_eq_zero, List.isEmpty_iff_length_eq_zero,
      hperm.length_eq]
  have hnames (f : SourceFile) (hf : f ∈ files) := names_parseCached hcache (hearlier f hf)
  unfold run
  rw [hempty]
  split
  · rfl
  · apply analyze_perm options (hperm.map (parseCached cache))
    · have hpaths : (files.map (parseCached cache)).map (·.template.path) = files.map (·.logical) := by
        rw [List.map_map]
        exact List.map_congr_left fun f hf => (hnames f hf).1
      rwa [hpaths]
    · have hfiles : (files.map (parseCached cache)).map (·.template.file) = files.map (·.display) := by
        rw [List.map_map]
        exact List.map_congr_left fun f hf => (hnames f hf).2.1
      rwa [hfiles]
    · have hfileNames : (files.map (parseCached cache)).map (fun p => Name.file p.template.path) =
          files.map fun f => Name.file f.logical := by
        rw [List.map_map]
        exact List.map_congr_left fun f hf => congrArg Name.file (hnames f hf).1
      rwa [hfileNames]
    · intro p hp
      obtain ⟨f, hf, rfl⟩ := List.mem_map.1 hp
      exact (hnames f hf).2.2

/-- Files with logical paths, display names and generated names of their own give the same result or
the same reports in any order: on a fresh compiler, and on one with passes behind it, unless a file
has path and checksum in common with an earlier one that went by another name. -/
theorem run_perm (options : CompileOptions) {files files' : List SourceFile}
    (hperm : files.Perm files')
    (hlogical : (files.map (·.logical)).Nodup)
    (hdisplay : (files.map (·.display)).Nodup)
    (hgenerated : (files.map fun f => Name.file f.logical).Nodup) (cancelled : Bool) :
    (run options [] files cancelled).2 = (run options [] files' cancelled).2 ∧
    ∀ passes : List Pass,
      (∀ f ∈ files, ∀ g ∈ filesOf passes, g.path = f.path → g.hash = f.hash → f.hash ≠ [] →
        g.display = f.display ∧ g.logical = f.logical) →
      (run options (cacheAfter options passes) files cancelled).2 =
        (run options (cacheAfter options passes) files' cancelled).2 := by
  constructor
  · have hempty : ParseCache.HoldsOnly [] [] := by
      intro entry hentry
      cases hentry
    apply run_perm_of_holdsOnly options hempty hperm hlogical hdisplay hgenerated
    intro f _ g hg
    cases hg
  · intro passes hearlier
    apply run_perm_of_holdsOnly options ?_ hperm hlogical hdisplay hgenerated hearlier
    apply holdsOnly_cacheAfter
    intro p hp f hf
    exact List.mem_flatMap.2 ⟨p, hp, hf⟩

def twoPages : List SourceFile := [
  ⟨"b.html", "b.html", "b", "1", "\x7bx"⟩,
  ⟨"a.html", "a.html", "a", [], "<b/><c/>"⟩]

theorem run_perm_twoPages :
    let cache := cacheAfter default [⟨[⟨"b.html", "b.html", "b", "1", "\x7bx"⟩], false⟩]
    (run default [] twoPages false).2 = (run default [] twoPages.reverse false).2 ∧
      (run default cache twoPages false).2 = (run default cache twoPages.reverse false).2 := by
  have hperm := run_perm default twoPages.reverse_perm.symm (by decide) (by decide) (by decide) false
  refine ⟨hperm.1, hperm.2 _ ?_⟩
  decide

end Compilation

end TagLoom

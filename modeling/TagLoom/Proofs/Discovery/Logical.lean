import TagLoom.Discovery
import TagLoom.Proofs.Path.Below

/-!
# Logical paths

The logical path of a template is its path below the root without the extension.  Files have
logical paths of their own.  The components of a logical path are names, unless the file is called
like the extension alone or like two dots with the extension: then the last component is no name.
-/

namespace TagLoom

namespace Bytes

theorem eq_append_of_endsWith {s ending : Bytes} (h : endsWith s ending = true) :
    trimEnding s ending ++ ending = s := by
  obtain ⟨start, rfl⟩ := List.isSuffixOf_iff_suffix.1 h
  simp [trimEnding, h]

end Bytes

namespace Path

theorem exists_base_eq_append {path ending : Bytes} (h : Bytes.endsWith path ending = true)
    (hne : ending ≠ []) (hslash : slash ∉ ending) : ∃ stem, base path = stem ++ ending := by
  obtain ⟨start, rfl⟩ := List.isSuffixOf_iff_suffix.1 h
  let first := (components start).dropLast
  let last := (components start).getLast (Bytes.splitByte_ne_nil slash start)
  have hsplit : components start = first ++ [last] := (List.dropLast_concat_getLast _).symm
  have hwhole : components (start ++ ending) = first ++ [last ++ ending] :=
    Bytes.splitByte_append start ending hsplit hslash
  refine ⟨last, base_eq_of_getLast? ?_ (List.append_ne_nil_of_right_ne_nil _ hne)⟩
  rw [hwhole, List.getLast?_concat]

end Path

namespace Discovery

variable {o : Discovery} {root path logical : Bytes}

theorem ending_ne_nil (o : Discovery) : o.ending ≠ [] := by
  unfold ending
  split
  · decide
  · next h => simpa using h

theorem excludes_eq_false_iff {below : Bytes} : o.excludes below = false ↔
    ∀ pattern ∈ o.exclude, Glob.fits pattern (Path.base below) = false ∧
      Glob.fits pattern below = false := by
  simp only [excludes, List.any_eq_false, Bool.or_eq_true, not_or, Bool.not_eq_true]

/-- Where a file with a logical path stands below the root. -/
structure Located (o : Discovery) (root path logical : Bytes) (rel : Path) : Prop where
  relative : Path.relative? root path = some rel
  stays : rel.leavesRoot = false
  kept : o.excludes rel.toBytes = false
  spelled : logical ++ o.ending = rel.toBytes
  solid : logical ≠ []
  /-- The directories on the way and the name of the file up to the extension. -/
  components : ∃ dirs stem, Path.components logical = dirs ++ [stem] ∧
    rel.parts = dirs ++ [stem ++ o.ending] ∧ Path.base path = stem ++ o.ending

theorem located_of_logical? (hfile : Path.IsFileBelow root path) (hslash : Path.slash ∉ o.ending)
    (h : o.logical? root path = some logical) : ∃ rel, Located o root path logical rel := by
  unfold logical? at h
  split at h
  · cases h
  · next hends =>
    split at h
    · cases h
    · next rel hrel =>
      dsimp only at h
      split at h
      · cases h
      · next hkept =>
        rw [Bool.or_eq_true, not_or, Bool.not_eq_true, Bool.not_eq_true] at hkept
        obtain ⟨hin, hkept⟩ := hkept
        obtain ⟨stem, hstem⟩ := Path.exists_base_eq_append (by simpa using hends)
          (ending_ne_nil o) hslash
        obtain ⟨dirs, hparts⟩ : ∃ dirs, rel.parts = dirs ++ [stem ++ o.ending] := by
          rw [← hstem]
          exact List.getLast?_eq_some_iff.1 (Path.getLast?_relative? hrel hin hfile)
        have hstemslash : Path.slash ∉ stem := fun hmem =>
          (Path.isName_of_relative? hrel hin _ (hparts ▸ List.mem_append_right _
            (List.mem_singleton_self _))).2.2.2 (List.mem_append_left _ hmem)
        have hdirslash : ∀ dir ∈ dirs, Path.slash ∉ dir := fun dir hdir =>
          (Path.isName_of_relative? hrel hin _ (hparts ▸ List.mem_append_left _ hdir)).2.2.2
        have hbelow : rel.toBytes = Bytes.join [Path.slash] (dirs ++ [stem]) ++ o.ending := by
          rw [(Path.toBytes_relative? hrel hin hfile).2, hparts, Bytes.join_concat_append]
        have htrim : Bytes.trimEnding rel.toBytes o.ending = Bytes.join [Path.slash] (dirs ++ [stem]) := by
          have hends : Bytes.endsWith rel.toBytes o.ending = true := by
            rw [hbelow, Bytes.endsWith, List.isSuffixOf_iff_suffix]
            exact List.suffix_append _ _
          refine (List.append_left_inj o.ending).1 ?_
          rw [Bytes.eq_append_of_endsWith hends, hbelow]
        split at h
        · cases h
        · next hsolid =>
          obtain rfl := Option.some.inj h
          refine ⟨rel, hrel, hin, hkept, ?_, by simpa using hsolid, dirs, stem, ?_, hparts, hstem⟩
          · rw [htrim, hbelow]
          · rw [htrim, Path.components, Bytes.splitByte_join (by simp)]
            exact List.forall_mem_append.2 ⟨hdirslash, by simpa using hstemslash⟩

theorem Located.ofBytes_eq {path' : Bytes} {rel rel' : Path} (h : Located o root path logical rel)
    (h' : Located o root path' logical rel') : Path.ofBytes path' = Path.ofBytes path := by
  obtain ⟨dirs, stem, hlogical, hparts, -⟩ := h.components
  obtain ⟨dirs', stem', hlogical', hparts', -⟩ := h'.components
  have hsame : dirs' ++ [stem'] = dirs ++ [stem] := hlogical'.symm.trans hlogical
  obtain ⟨rfl, hstem⟩ := List.append_inj' hsame rfl
  obtain rfl : stem' = stem := by simpa using hstem
  obtain ⟨-, hrooted, hpath⟩ := Path.parts_of_relative? h.relative h.stays
  obtain ⟨-, hrooted', hpath'⟩ := Path.parts_of_relative? h'.relative h'.stays
  rw [hparts] at hpath
  rw [hparts'] at hpath'
  exact Path.mk.injEq .. ▸ ⟨hrooted'.trans hrooted.symm, hpath'.trans hpath.symm⟩

/-- The components of a logical path are names exactly when the file's name is neither the extension
nor two dots with the extension. -/
theorem Located.names_iff {rel : Path} (h : Located o root path logical rel) :
    (∀ part ∈ Path.components logical, part ≠ [] ∧ part ≠ Path.up) ↔
      Path.base path ≠ o.ending ∧ Path.base path ≠ Path.up ++ o.ending := by
  obtain ⟨dirs, stem, hlogical, hparts, hbase⟩ := h.components
  have hdirs : ∀ part ∈ dirs, part ≠ [] ∧ part ≠ Path.up := fun part hpart =>
    have hname := Path.isName_of_relative? h.relative h.stays part
      (hparts ▸ List.mem_append_left _ hpart)
    ⟨hname.1, hname.2.2.1⟩
  have hempty : stem ++ o.ending ≠ o.ending ↔ stem ≠ [] := not_congr List.append_left_eq_self
  have hup : stem ++ o.ending ≠ Path.up ++ o.ending ↔ stem ≠ Path.up :=
    not_congr (List.append_left_inj _)
  rw [hlogical, hbase, List.forall_mem_append, List.forall_mem_singleton, hempty, hup]
  exact ⟨fun h => h.2, fun h => ⟨hdirs, h⟩⟩

/-- A logical path and the extension spell the path of the file below the root, no pattern fits that
path or the name of the file, and no other file has the logical path.  All of its components are
names exactly when the file is neither called like the extension alone nor like two dots with the
extension. -/
theorem logical?_spells (hfile : Path.IsFileBelow root path) (hslash : Path.slash ∉ o.ending)
    (h : o.logical? root path = some logical) :
    (∃ rel, Path.relative? root path = some rel ∧
      (Path.ofBytes path).parts = (Path.ofBytes root).parts ++ rel.parts ∧
      logical ++ o.ending = rel.toBytes ∧ logical ≠ [] ∧
      ∀ pattern ∈ o.exclude, Glob.fits pattern (Path.base path) = false ∧
        Glob.fits pattern rel.toBytes = false) ∧
      ((∀ part ∈ Path.components logical, part ≠ [] ∧ part ≠ Path.up) ↔
        Path.base path ≠ o.ending ∧ Path.base path ≠ Path.up ++ o.ending) ∧
      ∀ path', Path.IsFileBelow root path' → o.logical? root path' = some logical →
        Path.ofBytes path' = Path.ofBytes path := by
  obtain ⟨rel, hlocated⟩ := located_of_logical? hfile hslash h
  have hparts := (Path.parts_of_relative? hlocated.relative hlocated.stays).2.2
  have hkept := excludes_eq_false_iff.1 hlocated.kept
  rw [Path.base_relative? hlocated.relative hlocated.stays hfile] at hkept
  refine ⟨⟨rel, hlocated.relative, hparts, hlocated.spelled, hlocated.solid, hkept⟩,
    hlocated.names_iff, fun path' hfile' h' => ?_⟩
  obtain ⟨rel', hlocated'⟩ := located_of_logical? hfile' hslash h'
  exact hlocated.ofBytes_eq hlocated'

/-- A page below a root, spelled with detours. -/
theorem logical?_spells_detour :
    let o : Discovery := ⟨".html", ["_*", "drafts/*"]⟩
    let path : Bytes := "srv/pages//users/../blog/./post.html"
    o.logical? "srv/pages" path = some "blog/post" ∧ Path.IsFileBelow "srv/pages" path ∧
      Path.slash ∉ o.ending ∧
      (∀ part ∈ Path.components "blog/post", part ≠ [] ∧ part ≠ Path.up) ∧
      Glob.fits "_*" (Path.base path) = false ∧
      Path.ofBytes "srv/pages/blog/post.html" = Path.ofBytes path := by
  intro o path
  have h : o.logical? "srv/pages" path = some "blog/post" := by decide
  have hfile : Path.IsFileBelow "srv/pages" path := by decide
  have hslash : Path.slash ∉ o.ending := by decide
  obtain ⟨⟨rel, -, -, -, -, hkept⟩, hnames, hown⟩ := logical?_spells hfile hslash h
  refine ⟨h, hfile, hslash, hnames.2 (by decide), (hkept "_*" (by decide)).1, ?_⟩
  exact hown _ (by decide) (by decide)

/-- A file that is called like the extension has no logical path at the root but one in a directory,
which ends in a slash; called like two dots with the extension it has one that leads up. -/
theorem logical?_bareName :
    let o : Discovery := ⟨"", []⟩
    o.logical? "templates" "templates/.html" = none ∧
      Path.IsFileBelow "templates" "templates/a/.html" ∧
      o.logical? "templates" "templates/a/.html" = some "a/" ∧
      [] ∈ Path.components "a/" ∧
      o.logical? "templates" "templates/a/...html" = some "a/.." ∧
      Path.up ∈ Path.components "a/.." := by
  decide

end Discovery

end TagLoom

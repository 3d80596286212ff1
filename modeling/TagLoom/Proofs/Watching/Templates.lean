import TagLoom.DevSession
import TagLoom.Proofs.Path.Below

/-!
# Watched templates

Finding templates and watching them decide by tests of their own which files matter.  A file that is
found as a template passes the watcher's tests of its extension and of the patterns; it is watched
exactly when its name is that of neither a hidden file nor a backup.
-/

namespace TagLoom

namespace WatchRules

variable {o : Discovery} {root path logical : Bytes}

/-- What is known of a template: its ending, and a path below the root that no pattern excludes. -/
theorem of_logical? (h : o.logical? root path = some logical) :
    Bytes.endsWith path o.ending = true ∧ ∃ rel, Path.relative? root path = some rel ∧
      rel.leavesRoot = false ∧ o.excludes rel.toBytes = false := by
  unfold Discovery.logical? at h
  split at h
  · simp at h
  · next hends =>
    split at h
    · simp at h
    · next rel hrel =>
      dsimp only at h
      split at h
      · simp at h
      · next hkept =>
        rw [Bool.or_eq_true, not_or] at hkept
        exact ⟨by simpa using hends, rel, hrel, by simpa using hkept.1, by simpa using hkept.2⟩

theorem isTemplate_of_logical? (h : o.logical? root path = some logical) :
    isTemplate o.extension path = true := by
  have hends := (of_logical? h).1
  unfold Discovery.ending at hends
  split at hends
  · next hempty =>
    rw [List.isEmpty_iff.1 hempty, isTemplate, Bytes.endsWith, List.isSuffixOf_iff_suffix]
    exact List.nil_suffix
  · exact hends

theorem isKept_of_logical? (h : o.logical? root path = some logical)
    (hfile : Path.IsFileBelow root path) : isKept o.exclude path = true := by
  obtain ⟨-, rel, hrel, hin, hkept⟩ := of_logical? h
  rw [Discovery.excludes, Path.base_relative? hrel hin hfile, List.any_eq_false] at hkept
  rw [isKept, Bool.not_eq_true', List.any_eq_false]
  intro pattern hpattern hfits
  exact hkept pattern hpattern (by rw [hfits, Bool.true_or])

theorem isPlain_iff (path : Bytes) :
    isPlain path = true ↔
      (∀ rest, Path.base path ≠ "." ++ rest) ∧ ∀ start, Path.base path ≠ start ++ "~" := by
  have hdot : ("." : Bytes) = ['.'.toUInt8] := by decide
  have htilde : ("~" : Bytes) = ['~'.toUInt8] := by decide
  have hhead : FileTree.isHidden (Path.base path) = false ↔
      ∀ rest, Path.base path ≠ "." ++ rest := by
    rw [hdot, FileTree.isHidden, beq_eq_false_iff_ne, Ne, List.head?_eq_some_iff, not_exists]
    rfl
  have hlast : (Path.base path).getLast? ≠ some '~'.toUInt8 ↔
      ∀ start, Path.base path ≠ start ++ "~" := by
    rw [htilde, Ne, List.getLast?_eq_some_iff, not_exists]
  rw [isPlain, Bool.and_eq_true, Bool.not_eq_true', hhead, bne_iff_ne, hlast]

end WatchRules

namespace Watcher

theorem isSome_kindOf? (ops : List FileOp) :
    (kindOf? ops).isSome = true ↔ ∃ op ∈ ops, op ≠ .chmod := by
  unfold kindOf?
  constructor
  · intro h
    simp only [List.contains_iff_mem] at h
    split at h
    · exact ⟨.create, ‹_›, by simp⟩
    · split at h
      · exact ⟨.write, ‹_›, by simp⟩
      · split at h
        · exact ⟨.remove, ‹_›, by simp⟩
        · split at h
          · exact ⟨.rename, ‹_›, by simp⟩
          · simp at h
  · rintro ⟨op, hop, hne⟩
    cases op <;> grind

theorem observeFile_path {w : Watcher} {path : Bytes} (h : w.rules.accepts path = true)
    (found : Option FileTree) (ops : List FileOp) :
    (w.observeFile found path ops).map (·.path) = (kindOf? ops).map fun _ => path := by
  rw [observeFile, h, Bool.not_true, if_neg Bool.false_ne_true, Option.map_map]
  congr 1
  funext kind
  cases found with
  | none => rfl
  | some t => cases t <;> rfl

theorem observeFile_rejected {w : Watcher} {path : Bytes} (h : w.rules.accepts path = false)
    (found : Option FileTree) (ops : List FileOp) : w.observeFile found path ops = none := by
  rw [observeFile, h, Bool.not_false, if_pos rfl]

/-- A report about a file that is watched is a change to that file, unless only its permissions
changed. -/
theorem observe_accepted {w : Watcher} {d : Disk} {path : Bytes} {ops : List FileOp}
    (h : w.rules.accepts path = true) (hfile : ∀ es, d.stat path ≠ .ok (.dir es))
    (hops : ∃ op ∈ ops, op ≠ .chmod) : (w.observe d path ops).2.map (·.path) = some path := by
  obtain ⟨kind, hkind⟩ := Option.isSome_iff_exists.1 ((isSome_kindOf? ops).2 hops)
  unfold observe
  split
  · next es hdir => exact absurd hdir (hfile es)
  · rw [observeFile_path h, hkind]
    rfl
  · split
    · rfl
    · rw [observeFile_path h, hkind]
      rfl

theorem observe_rejected {w : Watcher} {d : Disk} {path : Bytes} (ops : List FileOp)
    (h : w.rules.accepts path = false) (hfile : ∀ es, d.stat path ≠ .ok (.dir es))
    (hdir : path ∉ w.dirs) : (w.observe d path ops).2 = none := by
  unfold observe
  split
  · next es hes => exact absurd hes (hfile es)
  · exact observeFile_rejected h _ _
  · rw [if_neg (by simp [hdir]), observeFile_rejected h]

end Watcher

/-- A file that is found as a template passes the watcher's tests of its extension and of the
patterns, and its last test exactly when its name neither starts with a dot nor ends in a tilde.
Exactly then a report about it is a change. -/
theorem watched_iff_plain (o : Discovery) {root path logical : Bytes}
    (h : o.logical? root path = some logical) (hfile : Path.IsFileBelow root path) :
    WatchRules.isTemplate o.extension path = true ∧ WatchRules.isKept o.exclude path = true ∧
      (WatchRules.isPlain path = true ↔
        (∀ rest, Path.base path ≠ "." ++ rest) ∧ ∀ start, Path.base path ≠ start ++ "~") ∧
      ∀ (w : Watcher) (d : Disk) (ops : List FileOp),
        w.rules = ⟨o.extension, o.exclude, true⟩ ∨ w.rules = ⟨o.ending, o.exclude, true⟩ →
        (∀ es, d.stat path ≠ .ok (.dir es)) → path ∉ w.dirs → (∃ op ∈ ops, op ≠ .chmod) →
        (w.observe d path ops).2.map (·.path) =
          if WatchRules.isPlain path then some path else none := by
  have htemplate := WatchRules.isTemplate_of_logical? h
  have hkept := WatchRules.isKept_of_logical? h hfile
  refine ⟨htemplate, hkept, WatchRules.isPlain_iff path, ?_⟩
  intro w d ops hrules hnodir hdirs hops
  have haccepts : w.rules.accepts path = WatchRules.isPlain path := by
    rcases hrules with hrules | hrules
    · simp only [hrules, WatchRules.accepts, htemplate, hkept, Bool.and_self, Bool.not_true,
        Bool.false_or, Bool.true_and]
    · have hending : WatchRules.isTemplate o.ending path = true := (WatchRules.of_logical? h).1
      simp only [hrules, WatchRules.accepts, hending, hkept, Bool.and_self, Bool.not_true,
        Bool.false_or, Bool.true_and]
  cases hplain : WatchRules.isPlain path with
  | true => rw [if_pos rfl, Watcher.observe_accepted (haccepts.trans hplain) hnodir hops]
  | false =>
      rw [if_neg Bool.false_ne_true,
        Watcher.observe_rejected ops (haccepts.trans hplain) hnodir hdirs]
      rfl

/-- A page below a directory of templates is watched. -/
theorem watched_page :
    let o : Discovery := ⟨".html", ["*.draft.html"]⟩
    let d : Disk := ⟨"/work", .dir [("templates", .dir [("post.html", .file "x")])]⟩
    let w : Watcher := ⟨⟨".html", ["*.draft.html"], true⟩, ["templates"]⟩
    o.logical? "templates" "templates/post.html" = some "post" ∧
      Path.IsFileBelow "templates" "templates/post.html" ∧
      (w.observe d "templates/post.html" [.write, .chmod]).2.map (·.path) =
        some "templates/post.html" := by
  intro o d w
  have h : o.logical? "templates" "templates/post.html" = some "post" := by decide
  have hfile : Path.IsFileBelow "templates" "templates/post.html" := by decide
  have hstat : (d.stat "templates/post.html").toOption.any FileTree.isDir = false := by
    decide
  have hnodir : ∀ es, d.stat "templates/post.html" ≠ .ok (.dir es) := by
    intro es hes
    rw [hes] at hstat
    cases hstat
  obtain ⟨-, -, -, hobserve⟩ := watched_iff_plain o h hfile
  refine ⟨h, hfile, ?_⟩
  rw [hobserve w d _ (.inl rfl) hnodir (by decide) ⟨.write, by simp⟩]
  decide

/-- A template whose name starts with a dot is found but not watched. -/
theorem hidden_template_unwatched :
    (Discovery.mk ".html" []).logical? "templates" "templates/.draft.html" = some ".draft" ∧
      Path.relative? "templates" "templates/.draft.html" = some ⟨false, [".draft.html"]⟩ ∧
      WatchRules.isTemplate ".html" "templates/.draft.html" = true ∧
      WatchRules.isKept [] "templates/.draft.html" = true ∧
      WatchRules.isPlain "templates/.draft.html" = false := by
  decide

end TagLoom

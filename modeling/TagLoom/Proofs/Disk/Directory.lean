import TagLoom.Proofs.Disk.Place

/-!
# Making directories

A directory that is not there is made with the ones above it and nothing else: the path of a place is
the path of the place above and a name, and the ones above are made first.
-/

namespace TagLoom

namespace Disk

open TagLoom.Path (slash up components isAbsolute solid IsName)
open FileTree (Entries)

variable {d : Disk} {path : Bytes} {place names : List Bytes} {es : Entries} {tree : FileTree}

/-! ## Making directories -/

theorem mkdirAll_of_dir (h : d.Spells path place) (hat : d.tree.at? place = some (.dir es)) :
    d.mkdirAll path = .ok d := by
  rw [mkdirAll, mkdirAllWithin, stat, resolve_of_dir h hat]
  rfl

theorem mkdir_eq {init : List Bytes} {last : Bytes} {above : Entries}
    (hnames : d.names? (Bytes.trimRightWhere (· == slash) path) = some (init ++ [last]))
    (hup : up ∉ init) (hat : d.tree.at? (solid init) = some (.dir above)) :
    d.mkdir path =
      if last.isEmpty || last == Bytes.ofString "." || last == up then .error .taken
      else if (Entries.get? above last).isSome then .error .taken
      else .ok { d with tree := FileTree.put .empty (solid init ++ [last]) d.tree } := by
  have hparent : d.parent (Bytes.trimRightWhere (· == slash) path) =
      .ok (solid init, .dir above, last) := by
    rw [parent, hnames]
    simp only [List.dropLast_concat, List.getLastD_concat]
    rw [follow_dir hup hat]
    rfl
  rw [mkdir, hparent]
  simp only [bind, Except.bind]
  split
  · rfl
  · split <;> rfl

theorem Anchored.of_prefix {front s s' : Bytes} (h : d.Anchored front s) (hs : s' <+: s)
    (hne : s' = [] → front = d.workingDir) : d.Anchored front s' := by
  cases s' with
  | nil => exact .inr ⟨hne rfl, .inl rfl⟩
  | cons c rest =>
      obtain ⟨more, rfl⟩ := hs
      rcases h with ⟨hfront, -, hrelative⟩ | ⟨hfront, hnil | habsolute⟩
      · exact .inl ⟨hfront, by simp, hrelative⟩
      · cases hnil
      · exact .inr ⟨hfront, .inr habsolute⟩

theorem Anchored.parentText {front s : Bytes} (h : d.Anchored front s)
    (hne : solid (components s) ≠ []) :
    Disk.parentText (front ++ s) = front ++ Disk.parentText s ∧
      lastName (front ++ s) = lastName s := by
  rcases h with ⟨rfl, -, -⟩ | ⟨-, rfl | habsolute⟩
  · exact ⟨rfl, rfl⟩
  · exact absurd rfl hne
  · exact parentText_append habsolute hne front

/-- The path of a place below the working directory is the path of a place above it, then a last
name, then slashes. -/
theorem Spells.above (hroot : d.IsRooted) (h : d.Spells path place) (hne : place ≠ []) :
    ∃ init last, up ∉ init ∧ last ≠ up ∧ place = solid init ++ solid [last] ∧
      d.names? (Bytes.trimRightWhere (· == slash) path) = some (init ++ [last]) ∧
      (parentText path = [] ∧ init = [] ∨ d.Spells (parentText path) (solid init)) ∧
      (parentText path).length < path.length := by
  obtain ⟨front, s, rfl, hanchored, hup, rfl⟩ := h.anchored
  have hparent := hanchored.parentText hne
  have hlast := lastName_ne_nil hne
  obtain ⟨init, hinit, hup', hup'', hupAbove, habove, hsolid⟩ := components_above hup
  obtain ⟨slashes, hs, -⟩ := exists_eq_trim_append s
  rw [trim_eq_parentText_append] at hs
  have htrim : Bytes.trimRightWhere (· == slash) (front ++ s) =
      front ++ (parentText s ++ lastName s) := by
    rw [trim_eq_parentText_append, hparent.1, hparent.2, List.append_assoc]
  have htrimmed : d.Anchored front (parentText s ++ lastName s) :=
    hanchored.of_prefix ⟨slashes, hs.symm⟩ fun hnil => absurd (List.append_eq_nil_iff.1 hnil).2 hlast
  refine ⟨init, lastName s, hup', hup'', hsolid, ?_, ?_, ?_⟩
  · rw [htrim, names?_of_anchored hroot htrimmed, hinit]
  · rw [hparent.1]
    by_cases hnil : front ++ parentText s = []
    · have hinit' : components (lastName s) = [lastName s] :=
        Bytes.splitByte_of_not_mem (slash_not_mem_lastName s)
      rw [(List.append_eq_nil_iff.1 hnil).2, List.nil_append, hinit'] at hinit
      exact .inl ⟨hnil, by simpa using hinit⟩
    · have hfront : parentText s = [] → front = d.workingDir := by
        intro hs
        rw [hs, List.append_nil] at hnil
        rcases hanchored with ⟨hfront, -⟩ | ⟨hfront, -⟩
        · exact absurd hfront hnil
        · exact hfront
      have hprefix : parentText s <+: s := ⟨lastName s ++ slashes, by rw [← List.append_assoc, ← hs]⟩
      rw [← habove]
      exact .inr ((hanchored.of_prefix hprefix hfront).spells hroot hupAbove)
  · rw [hparent.1]
    have := List.length_pos_iff.2 hlast
    have := congrArg List.length hs
    simp only [List.length_append] at this ⊢
    omega

theorem mkdirAllWithin_succ {d₁ : Disk} {fuel : Nat} {e : DiskError}
    (hstat : d.stat path = .error e)
    (hmade : (if (parentText path).isEmpty then .ok d
      else mkdirAllWithin fuel d (parentText path)) = .ok d₁) :
    mkdirAllWithin (fuel + 1) d path =
      match d₁.mkdir path with
      | .ok d₂ => .ok d₂
      | .error e =>
          match d₁.lstat path with
          | .ok (.dir _) => .ok d₁
          | _ => .error (path, e) := by
  rw [mkdirAllWithin, hstat]
  split at hmade
  · next hnil =>
    cases hmade
    simp only [hnil, if_pos, bind, Except.bind, pure, Except.pure]
    rfl
  · next hnil =>
    simp only [hnil, Bool.false_eq_true, if_false, hmade, bind, Except.bind, pure, Except.pure]
    rfl

/-- When a place is missing, what can be at the place above it has no entry under the last name; or
the last name stays, and there is nothing above either. -/
theorem entriesAt?_above {t : FileTree} {above : List Bytes} {last : Bytes}
    (hentries : t.entriesAt? (above ++ solid [last]) = some es)
    (hnone : t.at? (above ++ solid [last]) = none) :
    ∃ entries, t.entriesAt? above = some entries ∧
      if Path.isSolid last then Entries.get? entries last = none else entries = [] := by
  cases hsolid : Path.isSolid last with
  | false =>
      have hnil : solid [last] = [] := Path.solid_cons_of_not hsolid []
      rw [hnil, List.append_nil] at hentries hnone
      rcases FileTree.at?_of_entriesAt? hentries with hat | ⟨-, rfl⟩
      · rw [hnone] at hat
        cases hat
      · exact ⟨[], hentries, rfl⟩
  | true =>
      have hone : solid [last] = [last] := Path.solid_cons hsolid []
      rw [hone] at hentries hnone
      obtain ⟨entries, hentries'⟩ := FileTree.entriesAt?_concat hentries
      refine ⟨entries, hentries', ?_⟩
      rw [if_pos rfl]
      rcases FileTree.at?_of_entriesAt? hentries' with hat | ⟨-, rfl⟩
      · rwa [FileTree.at?_concat hat] at hnone
      · rfl

/-- The last directory of a path is made in the one above it, and nothing else changes. -/
theorem mkdir_last {init : List Bytes} {last : Bytes} {entries : Entries}
    (h : d.Spells path (solid init ++ solid [last]))
    (hnames : d.names? (Bytes.trimRightWhere (· == slash) path) = some (init ++ [last]))
    (hup : up ∉ init) (hlast : last ≠ up) (hat : d.tree.at? (solid init) = some (.dir entries))
    (hentry : if Path.isSolid last then Entries.get? entries last = none else entries = []) :
    ∃ tree, (match d.mkdir path with
        | .ok d₂ => .ok d₂
        | .error e =>
            match d.lstat path with
            | .ok (.dir _) => .ok d
            | _ => .error (path, e)) = (.ok { d with tree } : Except (Bytes × DiskError) Disk) ∧
      tree.at? (solid init ++ solid [last]) = some (.dir []) ∧
      ∀ q, ¬ q <+: solid init ++ solid [last] → tree.at? q = d.tree.at? q := by
  rw [mkdir_eq hnames hup hat]
  cases hsolid : Path.isSolid last with
  | false =>
      -- the last name stays in the directory that was made before
      have hnil : solid [last] = [] := Path.solid_cons_of_not hsolid []
      have hdot : (last.isEmpty || last == Bytes.ofString "." || last == up) = true := by
        rw [Path.isSolid, Bool.not_eq_false'] at hsolid
        rw [hsolid, Bool.true_or]
      rw [hsolid, if_neg Bool.false_ne_true] at hentry
      subst hentry
      rw [hnil, List.append_nil] at h ⊢
      have hlstat : d.lstat path = .ok (.dir []) := by
        rw [lstat, resolve_of_dir h hat]
        rfl
      rw [if_pos hdot, hlstat]
      exact ⟨d.tree, rfl, hat, fun _ _ => rfl⟩
  | true =>
      have hone : solid [last] = [last] := Path.solid_cons hsolid []
      have hname : (last.isEmpty || last == Bytes.ofString "." || last == up) = false := by
        rw [Path.isSolid, Bool.not_eq_true'] at hsolid
        simpa [hsolid] using hlast
      rw [hsolid, if_pos rfl] at hentry
      have hnone : d.tree.at? (solid init ++ [last]) = none := by
        rw [FileTree.at?_concat hat, hentry]
      have hentries : d.tree.entriesAt? (solid init ++ [last]) = some [] := by
        rw [FileTree.entriesAt?_append hat, FileTree.entriesAt?, hentry]
      rw [hone, hname, if_neg Bool.false_ne_true, hentry, if_neg (by simp)]
      exact ⟨_, rfl, FileTree.at?_put_self _ _ _, fun q hq =>
        FileTree.at?_put_empty hentries hnone hq⟩

/-- A directory that can be there is made with the ones above it, and nothing else changes. -/
theorem mkdirAllWithin_eq (hroot : d.IsRooted) (fuel : Nat) (hfuel : path.length < fuel)
    (h : d.Spells path place) (hentries : d.tree.entriesAt? place = some es) :
    ∃ tree, mkdirAllWithin fuel d path = .ok { d with tree } ∧
      tree.at? place = some (.dir es) ∧ ∀ q, ¬ q <+: place → tree.at? q = d.tree.at? q := by
  induction fuel generalizing path place es with
  | zero => omega
  | succ fuel ih =>
      rcases FileTree.at?_of_entriesAt? hentries with hat | ⟨hnone, rfl⟩
      · refine ⟨d.tree, ?_, hat, fun _ _ => rfl⟩
        rw [mkdirAllWithin, stat, resolve_of_dir h hat]
        rfl
      have hstat : d.stat path = .error .missing := by
        rw [stat, resolve_of_missing h hentries hnone]
        rfl
      have hne : place ≠ [] := by
        rintro rfl
        rw [FileTree.at?_nil] at hnone
        cases hnone
      obtain ⟨init, last, hup, hlast, rfl, hnames, habove, hlength⟩ := h.above hroot hne
      obtain ⟨entries, hentries', hentry⟩ := entriesAt?_above hentries hnone
      -- first the directory above
      obtain ⟨tree, hmade, hat, hframe⟩ : ∃ tree,
          (if (parentText path).isEmpty then .ok d
            else mkdirAllWithin fuel d (parentText path)) = .ok { d with tree } ∧
          tree.at? (solid init) = some (.dir entries) ∧
          ∀ q, ¬ q <+: solid init → tree.at? q = d.tree.at? q := by
        rcases habove with ⟨hnil, rfl⟩ | habove
        · obtain ⟨root, hroot'⟩ := FileTree.dir_of_entriesAt? hentries'
          rw [hroot'] at hentries'
          refine ⟨d.tree, by rw [hnil]; rfl, ?_, fun _ _ => rfl⟩
          rw [hroot', ← Option.some.inj hentries']
          rfl
        · have hnil : parentText path ≠ [] := by
            obtain ⟨names, hnames, -⟩ := habove
            rintro hnil
            rw [hnil] at hnames
            cases hnames
          rw [if_neg (by simpa using hnil)]
          exact ih (by omega) habove hentries'
      -- then the last one
      have hthere : ({ d with tree } : Disk).Spells path (solid init ++ solid [last]) := h
      obtain ⟨tree', hmkdir, hat', hframe'⟩ := mkdir_last hthere hnames hup hlast hat hentry
      refine ⟨tree', ?_, hat', fun q hq => ?_⟩
      · rw [mkdirAllWithin_succ hstat hmade]
        exact hmkdir
      · rw [hframe' q hq]
        exact hframe q fun habove => hq (habove.trans (List.prefix_append _ _))

end Disk

end TagLoom

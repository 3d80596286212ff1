import Mathlib.Data.List.TakeWhile
import TagLoom.Proofs.Disk.Tree

/-!
# Places on a disk

The path of a directory that goes up nowhere spells a place, and the path of an entry of the
directory is followed to the entry's name at that place.  So reading, writing and taking away an
entry look up, insert and erase its name in the directory's entries.
-/

namespace TagLoom

namespace Disk

open TagLoom.Path (slash up components isAbsolute solid IsName)
open FileTree (Entries)

/-! ## The path up to the last name -/

def lastName (path : Bytes) : Bytes :=
  ((path.reverse.dropWhile (· == slash)).takeWhile (· != slash)).reverse

theorem trim_eq_parentText_append (path : Bytes) :
    Bytes.trimRightWhere (· == slash) path = parentText path ++ lastName path := by
  rw [Bytes.trimRightWhere, parentText, lastName, ← List.reverse_append,
    List.takeWhile_append_dropWhile]

theorem slash_not_mem_lastName (path : Bytes) : slash ∉ lastName path := by
  intro h
  rw [lastName, List.mem_reverse] at h
  simpa using List.mem_takeWhile_imp h

theorem exists_eq_trim_append (path : Bytes) :
    ∃ slashes, path = Bytes.trimRightWhere (· == slash) path ++ slashes ∧
      ∀ c ∈ slashes, c = slash := by
  refine ⟨(path.reverse.takeWhile (· == slash)).reverse, ?_, fun c hc => ?_⟩
  · rw [Bytes.trimRightWhere, ← List.reverse_append, List.takeWhile_append_dropWhile,
      List.reverse_reverse]
  · simpa using List.mem_takeWhile_imp (List.mem_reverse.1 hc)

theorem parentText_eq_nil_or (path : Bytes) :
    parentText path = [] ∨ ∃ above, parentText path = above ++ [slash] := by
  rw [parentText]
  cases hdrop : (path.reverse.dropWhile (· == slash)).dropWhile (· != slash) with
  | nil => exact .inl rfl
  | cons c rest =>
      have hc : (c != slash) = false := by
        have := List.head?_dropWhile_not (· != slash) (path.reverse.dropWhile (· == slash))
        simpa [hdrop] using this
      obtain rfl : c = slash := by simpa using hc
      exact .inr ⟨rest.reverse, by simp⟩

theorem dropWhile_slash_ne_nil {path : Bytes} (h : solid (components path) ≠ []) :
    path.reverse.dropWhile (· == slash) ≠ [] := by
  intro hdrop
  refine h (Path.solid_components_slashes fun c hc => ?_)
  simpa using List.dropWhile_eq_nil_iff.1 hdrop c (List.mem_reverse.2 hc)

theorem lastName_ne_nil {path : Bytes} (h : solid (components path) ≠ []) : lastName path ≠ [] := by
  obtain ⟨c, rest, hdrop⟩ := List.exists_cons_of_ne_nil (dropWhile_slash_ne_nil h)
  have hc : (c == slash) = false := by
    have := List.head?_dropWhile_not (· == slash) path.reverse
    simpa [hdrop] using this
  have htake : (c :: rest).takeWhile (· != slash) = c :: rest.takeWhile (· != slash) :=
    List.takeWhile_cons_of_pos (by simpa using hc)
  rw [lastName, hdrop, htake]
  simp

theorem components_trim (path : Bytes) :
    ∃ init, components (parentText path ++ lastName path) = init ++ [lastName path] ∧
      solid (components (parentText path)) = solid init ∧
      components (parentText path) ⊆ [] :: init := by
  have hlast : components (lastName path) = [lastName path] :=
    Bytes.splitByte_of_not_mem (slash_not_mem_lastName path)
  rcases parentText_eq_nil_or path with habove | ⟨above, habove⟩
  · refine ⟨[], ?_, ?_, ?_⟩
    · rw [habove, List.nil_append, hlast, List.nil_append]
    · rw [habove]
      rfl
    · rw [habove]
      exact List.Subset.refl _
  · have hnil : components (above ++ [slash]) = components above ++ [[]] :=
      Path.components_append_slash above []
    refine ⟨components above, ?_, ?_, ?_⟩
    · rw [habove, List.append_assoc, List.singleton_append, Path.components_append_slash, hlast]
    · rw [habove, hnil, Path.solid_append]
      exact List.append_nil _
    · rw [habove, hnil]
      intro part hpart
      rw [List.mem_append, List.mem_singleton] at hpart
      exact List.mem_cons.2 hpart.symm

/-- A text that goes up nowhere is a text that goes up nowhere, then its last name, then slashes. -/
theorem components_above {s : Bytes} (hup : up ∉ components s) :
    ∃ init, components (parentText s ++ lastName s) = init ++ [lastName s] ∧
      up ∉ init ∧ lastName s ≠ up ∧ up ∉ components (parentText s) ∧
      solid (components (parentText s)) = solid init ∧
      solid (components s) = solid init ++ solid [lastName s] := by
  obtain ⟨init, hinit, habove, hsubset⟩ := components_trim s
  obtain ⟨slashes, hs, hslashes⟩ := exists_eq_trim_append s
  rw [trim_eq_parentText_append] at hs
  have hup' : up ∉ init ++ [lastName s] := by
    rw [← hinit]
    intro hmem
    rw [hs] at hup
    cases slashes with
    | nil => exact hup (by rwa [List.append_nil])
    | cons c rest =>
        rw [hslashes c List.mem_cons_self, Path.components_append_slash] at hup
        exact hup (List.mem_append_left _ hmem)
  rw [List.mem_append, List.mem_singleton, not_or] at hup'
  refine ⟨init, hinit, hup'.1, Ne.symm hup'.2, ?_, habove, ?_⟩
  · exact fun hmem => hup'.1 ((List.mem_cons.1 (hsubset hmem)).resolve_left (by decide))
  · rw [← Path.solid_append, ← hinit]
    conv_lhs => rw [hs]
    exact Path.solid_components_append_slashes _ hslashes

theorem parentText_append {path : Bytes} (habsolute : Path.isAbsolute path = true)
    (h : solid (components path) ≠ []) (front : Bytes) :
    parentText (front ++ path) = front ++ parentText path ∧
      lastName (front ++ path) = lastName path := by
  have hne := dropWhile_slash_ne_nil h
  have hdrop : (front ++ path).reverse.dropWhile (· == slash) =
      path.reverse.dropWhile (· == slash) ++ front.reverse := by
    rw [List.reverse_append, List.dropWhile_append, if_neg (by simpa using hne)]
  have hslash : slash ∈ path.reverse.dropWhile (· == slash) := by
    cases path with
    | nil => cases habsolute
    | cons c rest =>
        obtain rfl : c = slash := by simpa [isAbsolute] using habsolute
        rw [List.reverse_cons, List.dropWhile_append] at hne ⊢
        split at hne
        · exact absurd rfl hne
        · next hrest =>
          rw [if_neg hrest]
          exact List.mem_append_right _ (List.mem_singleton.2 rfl)
  have hstop : (path.reverse.dropWhile (· == slash)).dropWhile (· != slash) ≠ [] := by
    intro hall
    simpa using List.dropWhile_eq_nil_iff.1 hall slash hslash
  have hstop' : ((path.reverse.dropWhile (· == slash)).takeWhile (· != slash)).length ≠
      (path.reverse.dropWhile (· == slash)).length := by
    intro hlength
    have htake := (List.takeWhile_prefix (· != slash)).eq_of_length hlength
    simpa using List.takeWhile_eq_self_iff.1 htake slash hslash
  rw [parentText, parentText, lastName, lastName, hdrop, List.dropWhile_append,
    List.takeWhile_append, if_neg (by simpa using hstop), if_neg hstop']
  simp

/-! ## Spelled places -/

variable {d : Disk} {path name : Bytes} {place names : List Bytes} {es : Entries} {t : FileTree}

/-- The working directory is named by its path from the root. -/
def IsRooted (d : Disk) : Prop :=
  ∃ parts, parts ≠ [] ∧ (∀ part ∈ parts, IsName part) ∧
    d.workingDir = slash :: Bytes.join [slash] parts

/-- Whether a path goes from the working directory down to a place, and up nowhere. -/
def Spells (d : Disk) (path : Bytes) (place : List Bytes) : Prop :=
  ∃ names, d.names? path = some names ∧ up ∉ names ∧ solid names = place

/-- The two forms of a path: from the working directory on, or below its name. -/
def Anchored (d : Disk) (front s : Bytes) : Prop :=
  front = [] ∧ s ≠ [] ∧ isAbsolute s = false ∨
    front = d.workingDir ∧ (s = [] ∨ isAbsolute s = true)

theorem isAbsolute_iff {s : Bytes} : isAbsolute s = true ↔ ∃ rest, s = slash :: rest := by
  cases s with
  | nil => simp [isAbsolute]
  | cons c rest => simp [isAbsolute]

theorem names?_of_anchored (hroot : d.IsRooted) {front s : Bytes} (h : d.Anchored front s) :
    d.names? (front ++ s) = some (components s) := by
  obtain ⟨parts, hparts, -, hdir⟩ := hroot
  rcases h with ⟨rfl, hs, hrelative⟩ | ⟨rfl, hs⟩
  · have hstart : Bytes.startsWith (s ++ Bytes.ofString "/") (d.workingDir ++ Bytes.ofString "/") =
        false := by
      cases s with
      | nil => exact absurd rfl hs
      | cons c rest =>
          have hc : slash ≠ c := by
            rintro rfl
            simp [isAbsolute] at hrelative
          simp [hdir, Bytes.startsWith, List.isPrefixOf, hc]
    rw [List.nil_append, names?, hstart, hrelative, if_neg (by simpa using hs)]
    rfl
  · have hne : d.workingDir ++ s ≠ [] := by simp [hdir]
    have hstart : Bytes.startsWith (d.workingDir ++ s ++ Bytes.ofString "/")
        (d.workingDir ++ Bytes.ofString "/") = true := by
      rw [Bytes.startsWith, List.isPrefixOf_iff_prefix, List.append_assoc, List.prefix_append_right_inj]
      rcases hs with rfl | hs
      · exact List.prefix_rfl
      · obtain ⟨rest, rfl⟩ := isAbsolute_iff.1 hs
        exact ⟨rest ++ Bytes.ofString "/", rfl⟩
    rw [names?, hstart, if_neg (by simpa using hne), if_pos rfl, List.drop_left]

theorem anchored_of_names? (h : d.names? path = some names) :
    ∃ front s, path = front ++ s ∧ d.Anchored front s ∧ names = components s := by
  unfold names? at h
  split at h
  · cases h
  · next hne =>
    split at h
    · next hstart =>
      rw [Bytes.startsWith, List.isPrefixOf_iff_prefix] at hstart
      obtain ⟨rest, hrest⟩ := hstart
      have hsplit : ∃ s, path = d.workingDir ++ s ∧ (s = [] ∨ isAbsolute s = true) := by
        induction rest using List.reverseRecOn with
        | nil => exact ⟨[], by simpa using hrest.symm, .inl rfl⟩
        | append_singleton rest c _ =>
            rw [← List.append_assoc] at hrest
            refine ⟨slash :: rest, ?_, .inr (isAbsolute_iff.2 ⟨rest, rfl⟩)⟩
            rw [← (List.append_inj' hrest rfl).1, List.append_assoc]
            rfl
      obtain ⟨s, rfl, hs⟩ := hsplit
      rw [List.drop_left] at h
      exact ⟨_, s, rfl, .inr ⟨rfl, hs⟩, (Option.some.inj h).symm⟩
    · split at h
      · cases h
      · next hrelative =>
        exact ⟨[], path, rfl, .inl ⟨rfl, by simpa using hne, by simpa using hrelative⟩,
          (Option.some.inj h).symm⟩

theorem Spells.anchored (h : d.Spells path place) :
    ∃ front s, path = front ++ s ∧ d.Anchored front s ∧ up ∉ components s ∧
      solid (components s) = place := by
  obtain ⟨names, hnames, hup, hsolid⟩ := h
  obtain ⟨front, s, rfl, hanchored, rfl⟩ := anchored_of_names? hnames
  exact ⟨front, s, rfl, hanchored, hup, hsolid⟩

theorem Anchored.spells (hroot : d.IsRooted) {front s : Bytes} (h : d.Anchored front s)
    (hup : up ∉ components s) : d.Spells (front ++ s) (solid (components s)) :=
  ⟨_, names?_of_anchored hroot h, hup, rfl⟩

theorem Spells.isName (h : d.Spells path place) : ∀ part ∈ place, IsName part := by
  obtain ⟨front, s, rfl, -, hup, rfl⟩ := h.anchored
  exact Path.isName_of_mem_solid (Bytes.not_mem_of_mem_splitByte s) hup

theorem solid_components_workingDir {parts : List Bytes} (hne : parts ≠ [])
    (hparts : ∀ part ∈ parts, IsName part) {s : Bytes} (hs : s = [] ∨ isAbsolute s = true)
    (hup : up ∉ components s) :
    up ∉ components (slash :: Bytes.join [slash] parts ++ s) ∧
      solid (components (slash :: Bytes.join [slash] parts ++ s)) =
        parts ++ solid (components s) := by
  have hparts' : up ∉ parts := fun hmem => (hparts up hmem).2.2.1 rfl
  have hcomponents : ∃ after, components (slash :: Bytes.join [slash] parts ++ s) =
      [] :: (parts ++ after) ∧ up ∉ after ∧ solid after = solid (components s) := by
    rcases hs with rfl | hs
    · exact ⟨[], by rw [List.append_nil, Path.components_slash, Path.components_join hne hparts,
        List.append_nil], by simp, rfl⟩
    · obtain ⟨rest, rfl⟩ := isAbsolute_iff.1 hs
      rw [Path.components_slash, List.mem_cons, not_or] at hup
      refine ⟨components rest, ?_, hup.2, ?_⟩
      · rw [Path.components_append_slash, Path.components_slash, Path.components_join hne hparts,
          List.cons_append]
      · rw [Path.components_slash]
        rfl
  obtain ⟨after, heq, hafter, hsolid⟩ := hcomponents
  rw [heq]
  refine ⟨?_, ?_⟩
  · rw [List.mem_cons, List.mem_append]
    rintro (h | h | h)
    · exact absurd h (by decide)
    · exact hparts' h
    · exact hafter h
  · have hcons : solid ([] :: (parts ++ after)) = solid (parts ++ after) := rfl
    rw [hcons, Path.solid_append, Path.solid_of_names hparts, hsolid]

theorem Spells.join (hroot : d.IsRooted) (h : d.Spells path place) (hname : IsName name) :
    ∃ init, d.names? (Path.join path name) = some (init ++ [name]) ∧ up ∉ init ∧
      solid init = place := by
  have hplace := h.isName
  have hentry : ∀ part ∈ place ++ [name], IsName part := by
    simpa [or_imp, forall_and] using And.intro hplace hname
  have hentry' : place ++ [name] ≠ [] := by simp
  have hup' : up ∉ place := fun hmem => (hplace up hmem).2.2.1 rfl
  obtain ⟨front, s, rfl, hanchored, hup, rfl⟩ := h.anchored
  have hpath : front ++ s ≠ [] := by
    obtain ⟨parts, -, -, hdir⟩ := hroot
    rcases hanchored with ⟨-, hs, -⟩ | ⟨rfl, -⟩
    · simp [hs]
    · simp [hdir]
  rcases hanchored with ⟨rfl, hs, hrelative⟩ | ⟨rfl, hs⟩
  · have hnames : d.Anchored [] (Bytes.join [slash] (solid (components s) ++ [name])) :=
      .inl ⟨rfl, Path.join_names hentry' hentry⟩
    refine ⟨solid (components s), ?_, hup', Path.solid_of_names hplace⟩
    have hnames' := names?_of_anchored hroot hnames
    rw [List.nil_append, Path.components_join hentry' hentry] at hnames'
    rw [Path.join_eq hpath hup hname, List.nil_append, hrelative]
    exact hnames'
  · have hroot' := hroot
    obtain ⟨parts, hne, hparts, hdir⟩ := hroot'
    obtain ⟨hup, hsolid⟩ := solid_components_workingDir hne hparts hs hup
    rw [← hdir] at hup hsolid
    have hnames : d.Anchored d.workingDir
        (slash :: Bytes.join [slash] (solid (components s) ++ [name])) :=
      .inr ⟨rfl, .inr (isAbsolute_iff.2 ⟨_, rfl⟩)⟩
    refine ⟨[] :: solid (components s), ?_, ?_, Path.solid_of_names hplace⟩
    · have habsolute : isAbsolute (d.workingDir ++ s) = true := by rw [hdir]; rfl
      have hnames' := names?_of_anchored hroot hnames
      rw [Path.components_slash, Path.components_join hentry' hentry] at hnames'
      rw [Path.join_eq hpath hup hname, hsolid, habsolute, List.append_assoc, Bytes.join_append _ hne hentry',
        List.cons_append, ← hnames', hdir]
      simp [Bytes.when]
    · rw [List.mem_cons, not_or]
      exact ⟨by decide, hup'⟩

/-! ## Following paths -/

theorem dir_of_at?_eq_dir {q : List Bytes} (h : t.at? q = some (.dir es)) : ∃ root, t = .dir root := by
  cases t with
  | dir root => exact ⟨root, rfl⟩
  | _ => cases q <;> cases h

section Following

variable {tree : FileTree} {throughLast : Bool}
  {onLink : List Bytes → List Bytes → Except DiskError (List Bytes × FileTree)}

theorem followTo_cons_of_not {root : Entries} (h : tree.at? place = some (.dir root))
    (hsolid : Path.isSolid name = false) (rest : List Bytes) :
    followTo tree throughLast onLink place (name :: rest) =
      followTo tree throughLast onLink place rest := by
  have hdrop : (name.isEmpty || name == Bytes.ofString ".") = true := by
    rwa [Path.isSolid, Bool.not_eq_false'] at hsolid
  rw [followTo, h]
  simp only [hdrop, if_pos]

theorem followTo_cons {root : Entries} (h : tree.at? place = some (.dir root))
    (hsolid : Path.isSolid name = true) (hup : up ≠ name) (rest : List Bytes) :
    followTo tree throughLast onLink place (name :: rest) =
      match Entries.get? root name with
      | none => .error .missing
      | some (.link target) =>
          if rest.isEmpty && !throughLast then .ok (place ++ [name], .link target)
          else if isAbsolute target then .error .missing
          else onLink place (components target ++ rest)
      | some _ => followTo tree throughLast onLink (place ++ [name]) rest := by
  have hkeep : (name.isEmpty || name == Bytes.ofString ".") = false := by
    rwa [Path.isSolid, Bool.not_eq_true'] at hsolid
  have hname : (name == up) = false := by simpa using hup.symm
  rw [followTo, h]
  exact (if_neg (by simp [hkeep])).trans (if_neg (by simp [hname]))

theorem followTo_append {init : List Bytes} (hup : up ∉ init)
    (h : tree.at? (place ++ solid init) = some (.dir es)) (rest : List Bytes) :
    followTo tree throughLast onLink place (init ++ rest) =
      followTo tree throughLast onLink (place ++ solid init) rest := by
  induction init generalizing place with
  | nil => simp [solid]
  | cons name init ih =>
      rw [List.mem_cons, not_or] at hup
      have hwalk := h
      rw [FileTree.at?_append] at hwalk
      obtain ⟨u, hu, hbelow⟩ := Option.bind_eq_some_iff.1 hwalk
      obtain ⟨root, rfl⟩ := dir_of_at?_eq_dir hbelow
      rw [List.cons_append]
      cases hsolid : Path.isSolid name with
      | false =>
          rw [Path.solid_cons_of_not hsolid] at h ⊢
          rw [followTo_cons_of_not hu hsolid]
          exact ih hup.2 h
      | true =>
          rw [Path.solid_cons hsolid] at h hbelow ⊢
          rw [List.append_cons] at h ⊢
          rw [FileTree.at?_dir_cons] at hbelow
          obtain ⟨v, hv, hbelow⟩ := Option.bind_eq_some_iff.1 hbelow
          obtain ⟨sub, rfl⟩ := dir_of_at?_eq_dir hbelow
          rw [followTo_cons hu hsolid hup.1, hv]
          exact ih hup.2 h

theorem followTo_missing (hup : up ∉ names) {root : Entries}
    (hplace : tree.at? place = some (.dir root))
    (hentries : (FileTree.dir root).entriesAt? (solid names) = some es)
    (hnone : (FileTree.dir root).at? (solid names) = none) :
    followTo tree throughLast onLink place names = .error .missing := by
  induction names generalizing place root with
  | nil => simp [solid] at hnone
  | cons name names ih =>
      rw [List.mem_cons, not_or] at hup
      cases hsolid : Path.isSolid name with
      | false =>
          rw [Path.solid_cons_of_not hsolid] at hentries hnone
          rw [followTo_cons_of_not hplace hsolid]
          exact ih hup.2 hplace hentries hnone
      | true =>
          rw [Path.solid_cons hsolid] at hentries hnone
          rw [FileTree.entriesAt?] at hentries
          rw [FileTree.at?_dir_cons] at hnone
          rw [followTo_cons hplace hsolid hup.1]
          cases hname : Entries.get? root name with
          | none => rfl
          | some u =>
              simp only [hname, Option.bind_some] at hentries hnone
              obtain ⟨sub, rfl⟩ := FileTree.dir_of_entriesAt? hentries
              refine ih hup.2 ?_ hentries hnone
              rw [FileTree.at?_concat hplace, hname]

theorem exists_follow_eq (tree : FileTree) (throughLast : Bool) (links : Nat) :
    ∃ onLink, follow tree throughLast links = followTo tree throughLast onLink := by
  cases links with
  | zero => exact ⟨_, rfl⟩
  | succ links => exact ⟨_, rfl⟩

theorem follow_dir (hup : up ∉ names) (hat : tree.at? (solid names) = some (.dir es))
    (throughLast : Bool) (links : Nat) :
    follow tree throughLast links [] names = .ok (solid names, .dir es) := by
  obtain ⟨onLink, hfollow⟩ := exists_follow_eq tree throughLast links
  have hat' : tree.at? ([] ++ solid names) = some (.dir es) := hat
  rw [hfollow, ← List.append_nil names, followTo_append hup hat' [], List.nil_append, followTo, hat,
    List.append_nil]

theorem follow_entry {init : List Bytes} (hup : up ∉ init)
    (hat : tree.at? (solid init) = some (.dir es)) (hname : IsName name)
    (hlink : ∀ target, Entries.get? es name ≠ some (.link target)) (throughLast : Bool)
    (links : Nat) :
    follow tree throughLast links [] (init ++ [name]) =
      match Entries.get? es name with
      | none => .error .missing
      | some t => .ok (solid init ++ [name], t) := by
  obtain ⟨onLink, hfollow⟩ := exists_follow_eq tree throughLast links
  have hat' : tree.at? ([] ++ solid init) = some (.dir es) := hat
  rw [hfollow, followTo_append hup hat' [name], List.nil_append,
    followTo_cons hat hname.isSolid hname.2.2.1.symm]
  have hthere := FileTree.at?_concat hat name
  cases hentry : Entries.get? es name with
  | none => rfl
  | some t =>
      rw [hentry] at hthere
      cases t with
      | link target => exact absurd hentry (hlink target)
      | _ => simp only [followTo, hthere]

end Following

/-- A place at which a directory can be is found exactly when the directory is there. -/
theorem resolve_of_dir (h : d.Spells path place) (hat : d.tree.at? place = some (.dir es))
    (throughLast : Bool) : d.resolve throughLast path = .ok (place, .dir es) := by
  obtain ⟨names, hnames, hup, rfl⟩ := h
  rw [resolve, hnames]
  exact follow_dir hup hat throughLast maxLinks

theorem resolve_of_missing (h : d.Spells path place) (hentries : d.tree.entriesAt? place = some es)
    (hnone : d.tree.at? place = none) (throughLast : Bool) :
    d.resolve throughLast path = .error .missing := by
  obtain ⟨names, hnames, hup, rfl⟩ := h
  obtain ⟨onLink, hfollow⟩ := exists_follow_eq d.tree throughLast maxLinks
  obtain ⟨root, hroot⟩ := FileTree.dir_of_entriesAt? hentries
  rw [resolve, hnames, hfollow]
  rw [hroot] at hentries hnone ⊢
  exact followTo_missing hup (FileTree.at?_nil _) hentries hnone

/-! ## Entries of a directory -/

section Entry

variable (hroot : d.IsRooted) (h : d.Spells path place) (hat : d.tree.at? place = some (.dir es))
  (hname : IsName name)
include hroot h hat hname

theorem resolve_join (hlink : ∀ target, Entries.get? es name ≠ some (.link target))
    (throughLast : Bool) :
    d.resolve throughLast (Path.join path name) =
      match Entries.get? es name with
      | none => .error .missing
      | some t => .ok (place ++ [name], t) := by
  obtain ⟨init, hnames, hup, rfl⟩ := h.join hroot hname
  rw [resolve, hnames]
  exact follow_entry hup hat hname hlink throughLast maxLinks

theorem parent_join : d.parent (Path.join path name) = .ok (place, .dir es, name) := by
  obtain ⟨init, hnames, hup, rfl⟩ := h.join hroot hname
  rw [parent, hnames]
  simp only [List.dropLast_concat, List.getLastD_concat]
  rw [follow_dir hup hat]
  rfl

theorem read_join (hlink : ∀ target, Entries.get? es name ≠ some (.link target)) :
    d.read (Path.join path name) =
      match Entries.get? es name with
      | none => .error .missing
      | some (.file content) => .ok content
      | some _ => .error .isDirectory := by
  rw [read, stat, resolve_join hroot h hat hname hlink]
  cases Entries.get? es name with
  | none => rfl
  | some t => cases t <;> rfl

theorem write_join (hlink : ∀ target, Entries.get? es name ≠ some (.link target))
    (content : Bytes) :
    d.write (Path.join path name) content =
      match Entries.get? es name with
      | some (.dir _) => .error .isDirectory
      | _ => .ok { d with
          tree := FileTree.put (.dir (Entries.insert name (.file content) es)) place d.tree } := by
  have hnamed : (name.isEmpty || name == Bytes.ofString "." || name == up) = false := by
    simpa [Path.isSolid, hname.2.2.1] using hname.isSolid
  rw [write, parent_join hroot h hat hname]
  simp only [bind, Except.bind, hnamed, Bool.false_eq_true, if_false]
  rw [FileTree.put_concat hat]
  cases hentry : Entries.get? es name with
  | none => rfl
  | some t =>
      cases t with
      | link target => exact absurd hentry (hlink target)
      | _ => rfl

theorem erase_join (hentry : Entries.get? es name = some t)
    (hlink : ∀ target, Entries.get? es name ≠ some (.link target)) :
    d.erase (Path.join path name) =
      { d with tree := FileTree.put (.dir (Entries.erase name es)) place d.tree } := by
  rw [erase, resolve_join hroot h hat hname hlink, hentry]
  simp only [FileTree.erase_concat hat]

end Entry

end Disk

end TagLoom

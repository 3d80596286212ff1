import TagLoom.Output
import TagLoom.Proofs.Disk.Directory

/-!
# Generated files on a disk

Writing generated files to a directory brings it to hold them: each under its name, none that is
generated and not wanted, and all else as it was.  A directory that holds them already stays as it
is.
-/

namespace TagLoom.Output

open TagLoom.Path (IsName)
open FileTree (Entries SameOutside)

variable {d : Disk} {dir : Bytes} {place : List Bytes} {es : Entries} {f : GeneratedFile}
  {files : List GeneratedFile} {name : Bytes} {wanted : List Bytes}

/-! ## Names of generated files -/

theorem isName_file (path : Bytes) : IsName (Name.file path) := by
  have hlength : 10 ≤ (Name.file path).length := by
    rw [Name.file, List.length_append]
    exact Nat.le_add_left 10 _
  refine ⟨?_, ?_, ?_, ?_⟩
  · intro h
    rw [h] at hlength
    exact absurd hlength (by decide)
  · intro h
    rw [h] at hlength
    exact absurd hlength (by decide)
  · intro h
    rw [h] at hlength
    exact absurd hlength (by decide)
  · rw [Name.file, List.mem_append, List.mem_map, not_or]
    refine ⟨?_, by decide⟩
    rintro ⟨c, -, hc⟩
    split at hc
    · exact absurd hc (by decide)
    · next hne => exact hne (by simpa [Path.slash] using hc)

theorem isName_of_generate {options : CompileOptions} {tags : TagSet} {sigs : List Signature}
    (h : Compilation.generate options tags sigs = .ok files) : ∀ f ∈ files, IsName f.name := by
  unfold Compilation.generate Compilation.allOk at h
  dsimp only at h
  split at h
  · cases h
    intro f hf
    obtain ⟨result, hresult, hok⟩ := List.mem_filterMap.1 hf
    obtain rfl : result = .ok f := by
      cases result with
      | ok g => exact congrArg _ (Option.some.inj hok)
      | error _ => cases hok
    rcases List.mem_append.1 hresult with hfile | hregistry
    · obtain ⟨code, -, hcode⟩ := List.mem_map.1 hfile
      unfold Compilation.generateFile at hcode
      split at hcode
      · cases hcode
        exact isName_file _
      · cases hcode
    · have hcode := (List.mem_singleton.1 hregistry).symm
      unfold Compilation.generateRegistry at hcode
      have hname : IsName Code.registryFile := by decide
      split at hcode
      · cases hcode
        exact hname
      · cases hcode
  · cases h

/-! ## Opened directories -/

/-- A path leads from the working directory down to a directory of these entries, which are files
and directories. -/
structure Opens (d : Disk) (dir : Bytes) (place : List Bytes) (es : Entries) : Prop where
  rooted : d.IsRooted
  spelled : d.Spells dir place
  there : d.tree.at? place = some (.dir es)
  proper : es.Proper
  plain : ∀ name target, Entries.get? es name ≠ some (.link target)

theorem Opens.sameOutside (h : Opens d dir place es) (es' : Entries) :
    SameOutside place d.tree (FileTree.put (.dir es') place d.tree) := by
  have hentries := FileTree.entriesAt?_append h.there []
  rw [List.append_nil] at hentries
  exact fun q hbelow habove => FileTree.at?_put_of_apart hentries _ hbelow habove

theorem Opens.put (h : Opens d dir place es) {es' : Entries} (hproper : es'.Proper)
    (hplain : ∀ name target, Entries.get? es' name ≠ some (.link target)) :
    Opens { d with tree := FileTree.put (.dir es') place d.tree } dir place es' :=
  ⟨h.rooted, h.spelled, FileTree.at?_put_self _ _ _, hproper, hplain⟩

/-! ## Writing -/

def holds (es : Entries) (f : GeneratedFile) : Bool :=
  match Entries.get? es f.name with
  | some (.file content) => content == f.source
  | _ => false

theorem holds_iff : holds es f = true ↔ Entries.get? es f.name = some (.file f.source) := by
  unfold holds
  split
  · next content h => simp [h]
  · next h =>
    refine ⟨fun hfalse => absurd hfalse Bool.false_ne_true, fun heq => absurd heq (h _)⟩

theorem isCurrent_eq_holds (h : Opens d dir place es) (hname : IsName f.name) :
    isCurrent d (Path.join dir f.name) f.source = holds es f := by
  rw [isCurrent, Disk.read_join h.rooted h.spelled h.there hname (h.plain f.name), holds]
  cases Entries.get? es f.name with
  | none => rfl
  | some t => cases t <;> rfl

theorem writeEach_cons_of_holds (h : Opens d dir place es) (hname : IsName f.name)
    (hholds : holds es f = true) (n : Nat) :
    writeEach dir (f :: files) d n = writeEach dir files d n := by
  rw [writeEach]
  simp only [isCurrent_eq_holds h hname, hholds, if_true]

/-- A file that the directory does not hold is written where no directory is in the way. -/
theorem writeEach_cons_of_not_holds (h : Opens d dir place es) (hname : IsName f.name)
    (hholds : holds es f = false) (hfree : ∀ sub, Entries.get? es f.name ≠ some (.dir sub))
    (files : List GeneratedFile) (n : Nat) :
    let es' := Entries.insert f.name (.file f.source) es
    let d' := { d with tree := FileTree.put (.dir es') place d.tree }
    writeEach dir (f :: files) d n = writeEach dir files d' (n + 1) ∧ Opens d' dir place es' := by
  intro es' d'
  refine ⟨?_, h.put (h.proper.insert hname _) fun other target => ?_⟩
  · rw [writeEach]
    simp only [isCurrent_eq_holds h hname, hholds, Bool.false_eq_true, if_false]
    rw [Disk.write_join h.rooted h.spelled h.there hname (h.plain f.name)]
    cases hentry : Entries.get? es f.name with
    | none => rfl
    | some t =>
        cases t with
        | dir sub => exact absurd hentry (hfree sub)
        | _ => rfl
  · by_cases hother : other = f.name
    · rw [hother, Entries.get?_insert_self]
      exact fun heq => nomatch heq
    · rw [Entries.get?_insert_of_ne _ _ hother]
      exact h.plain other target

/-- Writing files puts each under its name, counts those that were not held, and keeps the other
entries. -/
theorem writeEach_eq (h : Opens d dir place es) (hnames : ∀ f ∈ files, IsName f.name)
    (hdistinct : (files.map (·.name)).Nodup)
    (hfree : ∀ f ∈ files, ∀ sub, Entries.get? es f.name ≠ some (.dir sub)) (n : Nat) :
    ∃ tree es', writeEach dir files d n =
        ({ d with tree }, n + (files.filter fun f => !holds es f).length, none) ∧
      Opens { d with tree } dir place es' ∧ SameOutside place d.tree tree ∧
      (∀ f ∈ files, Entries.get? es' f.name = some (.file f.source)) ∧
      ∀ name, name ∉ files.map (·.name) → Entries.get? es' name = Entries.get? es name := by
  induction files generalizing d es n with
  | nil => exact ⟨d.tree, es, rfl, h, fun _ _ _ => rfl, by simp, fun _ _ => rfl⟩
  | cons f files ih =>
      rw [List.forall_mem_cons] at hnames hfree
      rw [List.map_cons, List.nodup_cons] at hdistinct
      have hother : ∀ g ∈ files, g.name ≠ f.name := fun g hg heq =>
        hdistinct.1 (List.mem_map.2 ⟨g, hg, heq⟩)
      cases hholds : holds es f with
      | true =>
          obtain ⟨tree, es', hwrite, hopens, hsame, hheld, hkept⟩ :=
            ih h hnames.2 hdistinct.2 hfree.2 n
          refine ⟨tree, es', ?_, hopens, hsame, List.forall_mem_cons.2 ⟨?_, hheld⟩, ?_⟩
          · rw [writeEach_cons_of_holds h hnames.1 hholds, hwrite,
              List.filter_cons_of_neg (by simp [hholds])]
          · rw [hkept _ hdistinct.1, ← holds_iff]
            exact hholds
          · intro name hname
            rw [List.map_cons, List.mem_cons, not_or] at hname
            exact hkept name hname.2
      | false =>
          obtain ⟨hstep, hopens⟩ := writeEach_cons_of_not_holds h hnames.1 hholds hfree.1 files n
          -- names are distinct, so the files to come are held as they were before this one
          have hget (other : Bytes) (hne : other ≠ f.name) := Entries.get?_insert_of_ne
            (.file f.source) es hne
          obtain ⟨tree, es', hwrite, hopens, hsame, hheld, hkept⟩ :=
            ih hopens hnames.2 hdistinct.2
              (fun g hg sub => by rw [hget _ (hother g hg)]; exact hfree.2 g hg sub) (n + 1)
          refine ⟨tree, es', ?_, hopens, (h.sameOutside _).trans hsame,
            List.forall_mem_cons.2 ⟨?_, hheld⟩, ?_⟩
          · have hcount : (files.filter fun g =>
                !holds (Entries.insert f.name (.file f.source) es) g) =
                  files.filter fun g => !holds es g :=
              List.filter_congr fun g hg => by rw [holds, hget _ (hother g hg), holds]
            rw [hstep, hwrite, hcount, List.filter_cons_of_pos (by simp [hholds]),
              List.length_cons, Nat.add_assoc, Nat.add_comm 1]
          · rw [hkept _ hdistinct.1, Entries.get?_insert_self]
          · intro name hname
            rw [List.map_cons, List.mem_cons, not_or] at hname
            rw [hkept name hname.2, hget name hname.1]

theorem writeEach_of_holds (h : Opens d dir place es) (hnames : ∀ f ∈ files, IsName f.name)
    (hholds : ∀ f ∈ files, holds es f = true) (n : Nat) :
    writeEach dir files d n = (d, n, none) := by
  induction files with
  | nil => rfl
  | cons f files ih =>
      rw [List.forall_mem_cons] at hnames hholds
      rw [writeEach_cons_of_holds h hnames.1 hholds.1, ih hnames.2 hholds.2]

/-! ## Taking away -/

theorem foldl_erase_eq (gone : List (Bytes × FileTree)) (h : Opens d dir place es)
    (hgone : ∀ e ∈ gone, Entries.get? es e.1 = some e.2) (hdistinct : (gone.map (·.1)).Nodup) :
    ∃ tree es', gone.foldl (fun d e => d.erase (Path.join dir e.1)) d = { d with tree } ∧
      Opens { d with tree } dir place es' ∧ SameOutside place d.tree tree ∧
      ∀ name, Entries.get? es' name =
        if name ∈ gone.map (·.1) then none else Entries.get? es name := by
  induction gone generalizing d es with
  | nil => exact ⟨d.tree, es, rfl, h, fun _ _ _ => rfl, by simp⟩
  | cons e gone ih =>
      rw [List.forall_mem_cons] at hgone
      rw [List.map_cons, List.nodup_cons] at hdistinct
      have hname : IsName e.1 := h.proper.named e (Entries.mem_of_get?_eq_some hgone.1)
      have hget (other : Bytes) (hne : other ≠ e.1) := Entries.get?_erase_of_ne es hne
      have hopens : Opens { d with tree := FileTree.put (.dir (Entries.erase e.1 es)) place d.tree }
          dir place (Entries.erase e.1 es) := by
        refine h.put (h.proper.erase e.1) fun other target => ?_
        by_cases hother : other = e.1
        · rw [hother, Entries.get?_erase_self]
          exact fun heq => nomatch heq
        · rw [hget _ hother]
          exact h.plain other target
      have hgone' : ∀ g ∈ gone, Entries.get? (Entries.erase e.1 es) g.1 = some g.2 := by
        intro g hg
        rw [hget g.1 fun heq => hdistinct.1 (List.mem_map.2 ⟨g, hg, heq⟩)]
        exact hgone.2 g hg
      obtain ⟨tree, es', hfold, hopens', hsame, hentries⟩ := ih hopens hgone' hdistinct.2
      refine ⟨tree, es', ?_, hopens', (h.sameOutside _).trans hsame, fun name => ?_⟩
      · rw [List.foldl_cons, Disk.erase_join h.rooted h.spelled h.there hname hgone.1 (h.plain e.1)]
        exact hfold
      · rw [hentries name, List.map_cons]
        by_cases hname : name = e.1
        · rw [hname, if_neg hdistinct.1, if_pos List.mem_cons_self, Entries.get?_erase_self]
        · rw [hget name hname]
          simp only [List.mem_cons, hname, false_or]

def swept (wanted : List Bytes) (es : Entries) (name : Bytes) : Option FileTree :=
  (Entries.get? es name).filter fun t => !isStale wanted (name, t)

theorem sweep_eq (h : Opens d dir place es) (wanted : List Bytes) :
    ∃ tree es', sweep dir wanted d = { d with tree } ∧ Opens { d with tree } dir place es' ∧
      SameOutside place d.tree tree ∧ ∀ name, Entries.get? es' name = swept wanted es name := by
  have hstat : d.stat dir = .ok (.dir es) := by
    rw [Disk.stat, Disk.resolve_of_dir h.spelled h.there]
    rfl
  have hgone : ∀ e ∈ es.filter (isStale wanted), Entries.get? es e.1 = some e.2 := fun e he =>
    h.proper.get?_of_mem (List.mem_of_mem_filter he)
  have hdistinct : ((es.filter (isStale wanted)).map (·.1)).Nodup := by
    rw [List.nodup_iff_pairwise_ne, List.pairwise_map]
    refine (h.proper.ordered.sublist List.filter_sublist).imp fun {a b} hlt heq => ?_
    rw [heq, Bytes.lt_irrefl] at hlt
    cases hlt
  obtain ⟨tree, es', hfold, hopens, hsame, hentries⟩ := foldl_erase_eq _ h hgone hdistinct
  refine ⟨tree, es', ?_, hopens, hsame, fun name => ?_⟩
  · rw [sweep, hstat]
    exact hfold
  · rw [hentries name, swept]
    cases hentry : Entries.get? es name with
    | none => simp
    | some t =>
        have hstale : name ∈ (es.filter (isStale wanted)).map (·.1) ↔
            isStale wanted (name, t) = true := by
          refine ⟨fun hmem => ?_, fun hstale => ?_⟩
          · obtain ⟨⟨n, u⟩, he, rfl⟩ := List.mem_map.1 hmem
            obtain rfl : u = t := Option.some.inj ((hgone _ he).symm.trans hentry)
            exact (List.mem_filter.1 he).2
          · exact List.mem_map.2 ⟨(name, t),
              List.mem_filter.2 ⟨Entries.mem_of_get?_eq_some hentry, hstale⟩, rfl⟩
        cases hcase : isStale wanted (name, t) with
        | true => rw [if_pos (hstale.2 hcase), Option.filter_some_neg (by simp [hcase])]
        | false => rw [if_neg (by simp [hstale, hcase]), Option.filter_some_pos (by simp [hcase])]

theorem sweep_of_swept (h : Opens d dir place es)
    (hswept : ∀ name, Entries.get? es name = swept wanted es name) : sweep dir wanted d = d := by
  have hnone : es.filter (isStale wanted) = [] := by
    rw [List.filter_eq_nil_iff]
    intro e he hstale
    have hentry := hswept e.1
    rw [swept, h.proper.get?_of_mem he, Option.filter_some_neg (by simp [hstale])] at hentry
    cases hentry
  rw [sweep, Disk.stat, Disk.resolve_of_dir h.spelled h.there]
  simp only [Except.map, hnone, List.foldl_nil]

/-! ## Both -/

/-- Writing generated files to a directory that is there or can be made.  Each file is held under
its name afterwards; the count is that of the files that were not held before; of the other
entries, the files with the ending of generated files are gone and no other has changed; nor has
anything outside of the directory.  Writing the files again writes none and changes nothing. -/
theorem writeFiles_spec (hroot : d.IsRooted) (hspelled : d.Spells dir place)
    (hentries : d.tree.entriesAt? place = some es) (hproper : es.Proper)
    (hplain : ∀ name target, Entries.get? es name ≠ some (.link target))
    (hnames : ∀ f ∈ files, IsName f.name) (hdistinct : (files.map (·.name)).Nodup)
    (hfree : ∀ f ∈ files, ∀ sub, Entries.get? es f.name ≠ some (.dir sub)) :
    ∃ tree es', writeFiles d dir files =
        ({ d with tree }, (files.filter fun f => !holds es f).length, none) ∧
      tree.at? place = some (.dir es') ∧
      (∀ f ∈ files, Entries.get? es' f.name = some (.file f.source)) ∧
      (∀ name, name ∉ files.map (·.name) → Entries.get? es' name =
        match Entries.get? es name with
        | some (.file content) =>
            if Bytes.endsWith name Name.fileEnding then none else some (.file content)
        | entry => entry) ∧
      SameOutside place d.tree tree ∧
      writeFiles { d with tree } dir files = ({ d with tree }, 0, none) := by
  obtain ⟨tree₁, hmade, hthere, hsame₁⟩ :=
    Disk.mkdirAllWithin_eq hroot _ (Nat.lt_succ_self _) hspelled hentries
  have hopens₁ : Opens { d with tree := tree₁ } dir place es :=
    ⟨hroot, hspelled, hthere, hproper, hplain⟩
  obtain ⟨tree₂, es₂, hwrite, hopens₂, hsame₂, hheld, hkept⟩ :=
    writeEach_eq hopens₁ hnames hdistinct hfree 0
  obtain ⟨tree₃, es₃, hsweep, hopens₃, hsame₃, hswept⟩ := sweep_eq hopens₂ (files.map (·.name))
  have hstored : ∀ f ∈ files, Entries.get? es₃ f.name = some (.file f.source) := by
    intro f hf
    have hwanted : (files.map (·.name)).contains f.name = true := by
      simpa using ⟨f, hf, rfl⟩
    have hstale : isStale (files.map (·.name)) (f.name, .file f.source) = false := by
      rw [isStale, hwanted]
      rfl
    rw [hswept, swept, hheld f hf, Option.filter_some_pos (by simp [hstale])]
  refine ⟨tree₃, es₃, ?_, hopens₃.there, hstored, fun name hname => ?_, ?_, ?_⟩
  · have hmkdir : d.mkdirAll dir = .ok { d with tree := tree₁ } := hmade
    rw [writeFiles, hmkdir]
    simp only [hwrite, Nat.zero_add]
    rw [hsweep]
  · rw [hswept, swept, hkept name hname]
    cases hentry : Entries.get? es name with
    | none => rfl
    | some t =>
        cases t with
        | file content =>
            have hstale : isStale (files.map (·.name)) (name, .file content) =
                Bytes.endsWith name Name.fileEnding := by simp [isStale, FileTree.isDir, hname]
            cases hends : Bytes.endsWith name Name.fileEnding with
            | true => rw [Option.filter_some_neg (by simp [hstale, hends])]; rfl
            | false => rw [Option.filter_some_pos (by simp [hstale, hends])]; rfl
        | link target => exact absurd hentry (hplain name target)
        | dir sub => rfl
  · have hsame : SameOutside place d.tree tree₁ := fun q _ habove => hsame₁ q habove
    exact (hsame.trans hsame₂).trans hsame₃
  · have hswept₃ : ∀ name, Entries.get? es₃ name = swept (files.map (·.name)) es₃ name := by
      intro name
      rw [swept, hswept, swept, Option.filter_filter]
      simp
    rw [writeFiles, Disk.mkdirAll_of_dir hopens₃.spelled hopens₃.there]
    simp only [writeEach_of_holds hopens₃ hnames fun f hf => holds_iff.2 (hstored f hf)]
    rw [sweep_of_swept hopens₃ hswept₃]

/-- What a directory of views holds: files of two templates and of one that is gone, a file written
by hand, and a directory that has the name of a generated file. -/
def viewsEntries : Entries :=
  [("a.taglet.go", .file "package old"), ("b.taglet.go", .file "package b"),
    ("helpers.go", .file "package helpers"), ("old.taglet.go", .dir []),
    ("stale.taglet.go", .file "package stale")]

def viewsDisk : Disk := ⟨"/work", .dir [("views", .dir viewsEntries)]⟩

def viewsFiles : List GeneratedFile :=
  [⟨"b.taglet.go", "b", "package b"⟩, ⟨"a.taglet.go", "a", "package a"⟩,
    ⟨"c.taglet.go", "c", "package c"⟩]

/-- One file is held already, one has changed and one is new; the stale one is taken away. -/
theorem writeFiles_views :
    ∃ tree es', writeFiles viewsDisk "./views/" viewsFiles =
        ({ viewsDisk with tree }, 2, none) ∧
      tree.at? ["views"] = some (.dir es') ∧
      Entries.get? es' "a.taglet.go" = some (.file "package a") ∧
      Entries.get? es' "stale.taglet.go" = none ∧
      Entries.get? es' "helpers.go" = some (.file "package helpers") ∧
      Entries.get? es' "old.taglet.go" = some (.dir []) ∧
      writeFiles { viewsDisk with tree } "./views/" viewsFiles =
        ({ viewsDisk with tree }, 0, none) := by
  have hroot : viewsDisk.IsRooted := ⟨["work"], by decide, by decide, by decide⟩
  have hspelled : viewsDisk.Spells "./views/" ["views"] :=
    ⟨[".", "views", ""], by decide, by decide, by decide⟩
  have hproper : viewsEntries.Proper := ⟨by decide, by decide⟩
  have hplain : ∀ name target, Entries.get? viewsEntries name ≠ some (.link target) := by
    intro name target h
    have hmem := Entries.mem_of_get?_eq_some h
    simp [viewsEntries] at hmem
  have hfree : ∀ f ∈ viewsFiles, ∀ sub, Entries.get? viewsEntries f.name ≠ some (.dir sub) := by
    intro f hf sub h
    have hname : f.name = "old.taglet.go" ∧ sub = [] := by
      simpa [viewsEntries] using Entries.mem_of_get?_eq_some h
    have hmem : Bytes.ofString "old.taglet.go" ∈ viewsFiles.map (·.name) :=
      List.mem_map.2 ⟨f, hf, hname.1⟩
    exact absurd hmem (by decide)
  obtain ⟨tree, es', hwrite, hthere, hheld, hother, -, hagain⟩ :=
    writeFiles_spec hroot hspelled rfl hproper hplain (by decide) (by decide) hfree
  have hcount : (viewsFiles.filter fun f => !holds viewsEntries f).length = 2 := by decide
  rw [hcount] at hwrite
  have hchanged := hheld ⟨"a.taglet.go", "a", "package a"⟩ (by simp [viewsFiles])
  refine ⟨tree, es', hwrite, hthere, hchanged, ?_, ?_, ?_, hagain⟩
  · exact hother "stale.taglet.go" (by decide)
  · exact hother "helpers.go" (by decide)
  · exact hother "old.taglet.go" (by decide)

end TagLoom.Output

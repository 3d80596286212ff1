import Mathlib.Data.List.Induction
import Mathlib.Data.List.Nodup
import TagLoom.Proofs.Code.Registered
import TagLoom.Proofs.Compilation.Accepted

/-!
# The package of a pass

Every tag of a pass has its function in the file of its template and its entry in the registry.
-/

namespace TagLoom.Code

open Compilation (loaded)

variable {s : Setting} {P : LeafSpec}

theorem exists_of_forall₂ {α β : Type} {R : α → β → Prop} {xs : List α} {ys : List β}
    (h : List.Forall₂ R xs ys) {x : α} (hx : x ∈ xs) : ∃ y ∈ ys, R x y := by
  induction h with
  | nil => cases hx
  | cons hxy _ ih =>
      rcases List.mem_cons.1 hx with rfl | hx
      · exact ⟨_, List.mem_cons_self, hxy⟩
      · obtain ⟨y, hy, hr⟩ := ih hx
        exact ⟨y, List.mem_cons_of_mem _ hy, hr⟩

/-! ## Emitting one after the other -/

def emitAll {α : Type} (emitOne : List Bytes → Definition → α × List Bytes) (ds : List Definition) :
    List α × List Bytes :=
  ds.foldl (fun acc d => (acc.1 ++ [(emitOne acc.2 d).1], (emitOne acc.2 d).2)) ([], [])

/-- Each definition has what was emitted for it, and its prepared expressions are among those of the
whole file. -/
theorem emitAll_spec {α : Type} {emitOne : List Bytes → Definition → α × List Bytes}
    (hgrows : ∀ programs d, programs <+: (emitOne programs d).2) (ds : List Definition) :
    List.Forall₂ (fun d a => ∃ programs, a = (emitOne programs d).1 ∧
      (emitOne programs d).2 <+: (emitAll emitOne ds).2) ds (emitAll emitOne ds).1 := by
  induction ds using List.reverseRecOn with
  | nil => exact .nil
  | append_singleton ds d ih =>
      have hconcat : emitAll emitOne (ds ++ [d]) =
          ((emitAll emitOne ds).1 ++ [(emitOne (emitAll emitOne ds).2 d).1],
            (emitOne (emitAll emitOne ds).2 d).2) := by
        rw [emitAll, List.foldl_concat]
        rfl
      rw [hconcat]
      exact List.rel_append
        (ih.imp fun e a ⟨programs, ha, hp⟩ => ⟨programs, ha, hp.trans (hgrows _ d)⟩)
        (.cons ⟨_, rfl, List.prefix_refl _⟩ .nil)

/-! ## Functions -/

theorem function_eq (s : Setting) (programs : List Bytes) (d : Definition) :
    ∃ renders, function s programs d =
      (⟨Name.exported d.name, renders,
        ((tagCode s (loaded s.signatures d).params d.body).run ⟨programs, [], 0⟩).1.1.map
          fun l => (l.id, l.type),
        ((tagCode s (loaded s.signatures d).params d.body).run ⟨programs, [], 0⟩).1.2⟩,
        ((tagCode s (loaded s.signatures d).params d.body).run ⟨programs, [], 0⟩).2.programs) :=
  ⟨_, rfl⟩

theorem tagCode_adds (s : Setting) (params : List Param) (body : List Node) :
    Adds (tagCode s params body) :=
  (Adds.mapM fun param _ => declareParam_adds s param).bind fun scope =>
    (nodeStmts_adds s scope [] body).bind fun _ => Adds.pure _

theorem function_grows (s : Setting) (programs : List Bytes) (d : Definition) :
    programs <+: (function s programs d).2 := by
  obtain ⟨renders, hf⟩ := function_eq s programs d
  rw [hf]
  exact (tagCode_adds s _ d.body ⟨programs, [], 0⟩).programs

structure FunctionFor (s : Setting) (programs : List Bytes) (d : Definition) (f : Function) : Prop where
  name : f.name = Name.exported d.name
  emitted : EmittedFor s programs (loaded s.signatures d) f

def emittedDefs (accepted : List Definition) (t : Template) : List Definition :=
  t.defs.filterMap fun d =>
    (accepted.filter fun d => d.template == t.path).find? fun a => a.name == d.name && a.pos == d.pos

theorem fileOf_eq (s : Setting) (accepted : List Definition) (t : Template) :
    fileOf s accepted t = if (emittedDefs accepted t).isEmpty then none else
      some ⟨t.path, exprName t.path, (emitAll (function s) (emittedDefs accepted t)).2,
        (emitAll (function s) (emittedDefs accepted t)).1⟩ :=
  rfl

theorem fileOf_spec (s : Setting) (accepted : List Definition) (t : Template) :
    (fileOf s accepted t = none ∧ emittedDefs accepted t = []) ∨
      ∃ file, fileOf s accepted t = some file ∧
        List.Forall₂ (FunctionFor s file.programs) (emittedDefs accepted t) file.functions := by
  rw [fileOf_eq]
  split
  · rename_i hempty
    exact .inl ⟨rfl, List.isEmpty_iff.1 hempty⟩
  · refine .inr ⟨_, rfl, (emitAll_spec (function_grows s) _).imp fun d f ⟨programs, hf, hp⟩ => ?_⟩
    obtain ⟨renders, hfunction⟩ := function_eq s programs d
    rw [hfunction] at hf hp
    subst hf
    exact ⟨rfl, _, rfl, rfl, hp⟩

/-- The functions of a file are those of its definitions, each after the prepared expressions of the
ones before it. -/
theorem exists_function_of_fileOf {accepted : List Definition} {t : Template} {file : File}
    (h : fileOf s accepted t = some file) {f : Function} (hf : f ∈ file.functions) :
    ∃ d ∈ emittedDefs accepted t, ∃ before, f = (function s before d).1 ∧
      (function s before d).2 <+: file.programs := by
  rw [fileOf_eq] at h
  split at h
  · cases h
  · cases h
    exact exists_of_forall₂ (emitAll_spec (function_grows s) (emittedDefs accepted t)).flip hf

/-! ## The package -/

/-- The tags of a set have different names, also in the code, and each stands in a template of the
set. -/
structure Distinct (set : TagSet) : Prop where
  names : (set.defs.map (·.name)).Nodup
  exported : (set.defs.map fun d => Name.exported d.name).Nodup
  origin : ∀ d ∈ set.defs, ∃ t ∈ set.templates, d.template = t.path ∧
    ∃ e ∈ t.defs, e.name = d.name ∧ e.pos = d.pos

/-- What emission knows of a pass. -/
def settingOf (set : TagSet) (sigs : List Signature) : Setting :=
  ⟨sigs, set.defs.map fun d => Name.exported d.name⟩

section

variable {set : TagSet} {sigs : List Signature}

theorem mem_of_mem_emittedDefs {accepted : List Definition} {t : Template} {d : Definition}
    (h : d ∈ emittedDefs accepted t) : d ∈ accepted := by
  obtain ⟨e, -, he⟩ := List.mem_filterMap.1 h
  exact (List.mem_filter.1 (List.mem_of_find?_eq_some he)).1

theorem mem_emittedDefs (hset : Distinct set) {d : Definition} (hd : d ∈ set.defs) :
    ∃ t ∈ set.templates, d ∈ emittedDefs set.defs t := by
  obtain ⟨t, ht, htemplate, e, he, hname, hpos⟩ := hset.origin d hd
  refine ⟨t, ht, List.mem_filterMap.2 ⟨e, he, ?_⟩⟩
  have hhas : d ∈ set.defs.filter fun d => d.template == t.path :=
    List.mem_filter.2 ⟨hd, by simp [htemplate]⟩
  cases hfind : (set.defs.filter fun d => d.template == t.path).find? fun a =>
      a.name == e.name && a.pos == e.pos with
  | none => exact absurd (List.find?_eq_none.1 hfind d hhas) (by simp [hname, hpos])
  | some a =>
      have hmem := (List.mem_filter.1 (List.mem_of_find?_eq_some hfind)).1
      have hsame := List.find?_some hfind
      simp only [Bool.and_eq_true, beq_iff_eq] at hsame
      rw [List.inj_on_of_nodup_map hset.names hmem hd (hsame.1.trans hname)]

theorem exists_function?_ofPass (hset : Distinct set) {d : Definition} (hd : d ∈ set.defs) :
    ∃ programs before, (Package.ofPass set sigs).function? (Name.exported d.name) =
        some (programs, (function (settingOf set sigs) before d).1) ∧
      (function (settingOf set sigs) before d).2 <+: programs := by
  have hfiles : (Package.ofPass set sigs).files =
      set.templates.filterMap (fileOf (settingOf set sigs) set.defs) := rfl
  have hfound : ((Package.ofPass set sigs).function? (Name.exported d.name)).isSome := by
    obtain ⟨t, ht, hdt⟩ := mem_emittedDefs hset hd
    rcases fileOf_spec (settingOf set sigs) set.defs t with ⟨-, hnil⟩ | ⟨file, hfile, hall⟩
    · rw [hnil] at hdt
      cases hdt
    · obtain ⟨f, hf, hfor⟩ := exists_of_forall₂ hall hdt
      rw [Package.function?, List.findSome?_isSome_iff]
      refine ⟨file, hfiles ▸ List.mem_filterMap.2 ⟨t, ht, hfile⟩, ?_⟩
      rw [Option.isSome_map, List.find?_isSome]
      exact ⟨f, hf, beq_iff_eq.2 hfor.name⟩
  obtain ⟨⟨programs, f⟩, hpair⟩ := Option.isSome_iff_exists.1 hfound
  obtain ⟨file, hfile, hsome⟩ := List.exists_of_findSome?_eq_some hpair
  obtain ⟨g, hg, heq⟩ := Option.map_eq_some_iff.1 hsome
  cases heq
  rw [hfiles] at hfile
  obtain ⟨t, -, ht⟩ := List.mem_filterMap.1 hfile
  obtain ⟨e, he, before, rfl, hprograms⟩ :=
    exists_function_of_fileOf ht (List.mem_of_find?_eq_some hg)
  have hsame := List.find?_some hg
  have hname : Name.exported e.name = Name.exported d.name := beq_iff_eq.1 hsame
  obtain rfl := List.inj_on_of_nodup_map hset.exported (mem_of_mem_emittedDefs he) hd hname
  exact ⟨_, before, hpair, hprograms⟩

end

end TagLoom.Code

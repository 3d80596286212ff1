import TagLoom.Page
import TagLoom.Proofs.Expr.Graft
import TagLoom.Rendering

/-!
# What values hold

A condition on the things to be rendered in a value.  Expressions and loops pass such things on and
make none: they commute with grafting, and a graft that replaces exactly what breaks the condition
changes exactly the values that do not meet it.  Data is what holds nothing to be rendered.

A rendering makes nothing to be rendered but blocks of the tags: what it evaluates, hands to
parameters and goes through in loops holds otherwise only what the names in scope hold, and at the
start that is what the model holds.
-/

namespace TagLoom

namespace Value

variable {β : Type}

mutual

/-- Everything to be rendered in a value meets a condition, and so does what its blocks read. -/
def All (ok : Value β → Prop) : Value β → Prop
  | .list _ items => AllItems ok items
  | .record entries => AllEntries ok entries
  | .table _ entries => AllRows ok entries
  | .supplied kind s => ok (.supplied kind s)
  | .shown v => ok (.shown v)
  | .block code env => ok (.block code env) ∧ AllEntries ok env
  | _ => True

def AllItems (ok : Value β → Prop) : List (Value β) → Prop
  | [] => True
  | v :: vs => All ok v ∧ AllItems ok vs

def AllEntries (ok : Value β → Prop) : List (Bytes × Value β) → Prop
  | [] => True
  | (_, v) :: entries => All ok v ∧ AllEntries ok entries

def AllRows (ok : Value β → Prop) : List (Key × Value β) → Prop
  | [] => True
  | (_, v) :: entries => All ok v ∧ AllRows ok entries

end

def mark : Value β → Value β
  | .supplied kind .done => .supplied kind (.fail (.own []))
  | .supplied kind _ => .supplied kind .done
  | v => .shown v

theorem mark_ne {v : Value β} (h : v.isRenderable = true) : mark v ≠ v := by
  cases v with
  | supplied kind s => cases s <;> simp [mark]
  | shown w =>
      intro heq
      have hsize := congrArg sizeOf heq
      simp [mark] at hsize
  | block code env => simp [mark]
  | _ => cases h

open Classical in
/-- Marks what does not meet the condition. -/
noncomputable def keep (ok : Value β → Prop) (v : Value β) : Value β :=
  if All ok v then v else mark v

variable {ok : Value β → Prop}

theorem keepsTypes_keep (ok : Value β → Prop) : KeepsTypes (keep ok) := by
  intro v hv
  rw [keep]
  split
  · exact ⟨hv, rfl⟩
  · cases v with
    | supplied kind s => cases s <;> cases kind <;> exact ⟨rfl, rfl⟩
    | shown w => exact ⟨rfl, rfl⟩
    | block code env => exact ⟨rfl, rfl⟩
    | _ => cases hv

theorem keep_eq_iff {v : Value β} (hv : v.isRenderable = true) : keep ok v = v ↔ All ok v := by
  rw [keep]
  split
  · simp_all
  · rename_i h
    simp [h, mark_ne hv]

mutual

theorem all_iff_graft (v : Value β) : All ok v ↔ graft (keep ok) v = v := by
  cases v with
  | list kind items => simp [All, graft, allItems_iff_graft items]
  | record entries => simp [All, graft, allEntries_iff_graft entries]
  | table kind entries => simp [All, graft, allRows_iff_graft entries]
  | supplied kind s => rw [graft, keep_eq_iff rfl]
  | shown w => rw [graft, keep_eq_iff rfl]
  | block code env => rw [graft, keep_eq_iff rfl]
  | _ => simp [All, graft]

theorem allItems_iff_graft (items : List (Value β)) :
    AllItems ok items ↔ graftItems (keep ok) items = items := by
  cases items with
  | nil => simp [AllItems, graftItems]
  | cons v vs => simp [AllItems, graftItems, all_iff_graft v, allItems_iff_graft vs]

theorem allEntries_iff_graft (entries : List (Bytes × Value β)) :
    AllEntries ok entries ↔ graftEntries (keep ok) entries = entries := by
  rcases entries with _ | ⟨⟨k, v⟩, es⟩
  · simp [AllEntries, graftEntries]
  · simp [AllEntries, graftEntries, all_iff_graft v, allEntries_iff_graft es]

theorem allRows_iff_graft (entries : List (Key × Value β)) :
    AllRows ok entries ↔ graftRows (keep ok) entries = entries := by
  rcases entries with _ | ⟨⟨k, v⟩, es⟩
  · simp [AllRows, graftRows]
  · simp [AllRows, graftRows, all_iff_graft v, allRows_iff_graft es]

end

theorem allEntries_iff {env : Env β} : AllEntries ok env ↔ ∀ entry ∈ env, All ok entry.2 := by
  induction env with
  | nil => simp [AllEntries]
  | cons entry env ih => simp [AllEntries, ih]

theorem all_nil : All ok .nil := trivial

theorem all_text (s : Bytes) : All ok (.text s) := trivial

theorem all_toValue (l : Literal) : All ok l.toValue := by
  cases l <;> trivial

theorem all_get {env : Env β} (h : AllEntries ok env) (n : Bytes) : All ok (env.get n) := by
  rw [Env.get, Env.get?]
  cases hfind : env.find? (·.1 == n) with
  | none => trivial
  | some entry => exact allEntries_iff.1 h entry (List.mem_of_find?_eq_some hfind)

theorem all_asContent {v : Value β} (hshown : ∀ w, ok (.shown w)) (h : All ok v) :
    All ok v.asContent := by
  cases v with
  | nil | noContent => trivial
  | supplied kind s => exact h
  | shown w => exact h
  | block code env => exact h
  | _ => exact hshown _

theorem all_of_mem_entries? {v : Value β} (h : All ok v) {entries : List (Value β × Value β)}
    (hentries : v.entries? = some entries) :
    ∀ e ∈ entries, All ok e.1 ∧ All ok e.2 := by
  have hgraft := entries?_graft (keepsTypes_keep ok) v
  rw [(all_iff_graft v).1 h, hentries, Option.map_some, Option.some_inj] at hgraft
  have hmap : entries.map (graftEntry (keep ok)) = entries.map id := by rw [List.map_id, ← hgraft]
  intro e he
  have hsame : graftEntry (keep ok) e = e := List.map_inj_left.1 hmap e he
  exact ⟨(all_iff_graft _).2 (congrArg Prod.fst hsame),
    (all_iff_graft _).2 (congrArg Prod.snd hsame)⟩

theorem all_of_evaluate [Language] [LawfulLanguage] {e : Expression} {env : Env β}
    (henv : AllEntries ok env) {v : Value β} (h : Language.evaluate e env = .ok v) : All ok v := by
  have hgraft := LawfulLanguage.evaluate_graft (keepsTypes_keep ok) e env
  rw [(allEntries_iff_graft env).1 henv, h] at hgraft
  exact (all_iff_graft v).2 (Except.ok.inj hgraft).symm

end Value

namespace Page

open Value

variable {β : Type} {ok : Value β → Prop}

theorem all_entries {v : Value β} (h : All ok v) (p : Page) :
    ∀ e ∈ (p.entries v).1, All ok e.1 ∧ All ok e.2 := by
  rw [entries]
  cases p.failure with
  | some failure => exact fun _ he => nomatch he
  | none =>
      cases hentries : v.entries? with
      | none => exact fun _ he => nomatch he
      | some es =>
          dsimp only
          split
          · exact fun _ he => nomatch he
          · exact all_of_mem_entries? h hentries

theorem all_evaluate [Language] [LawfulLanguage] {env : Env β} (h : AllEntries ok env)
    (e : Expression) (p : Page) : All ok (p.evaluate e env).1 := by
  rw [evaluate]
  cases p.failure with
  | some failure => trivial
  | none =>
      cases hv : Language.evaluate e env with
      | error reason => trivial
      | ok v => exact all_of_evaluate h hv

end Page

namespace Value

variable {β : Type} {v : Value β}

/-! ## Data -/

def IsData (v : Value β) : Prop := v.All fun _ => False

theorem isRenderable_of_isData (h : v.IsData) : v.isRenderable = false := by
  cases v with
  | supplied kind s => exact h.elim
  | shown w => exact h.elim
  | block code env => exact h.1.elim
  | _ => rfl

theorem asContent_of_isData (h : v.IsData) : v.asContent = .noContent ∨ v.asContent = .shown v := by
  cases v with
  | nil | noContent => exact Or.inl rfl
  | _ => exact Or.inr (by simp [asContent, isRenderable_of_isData h])

end Value

namespace Bundle

theorem exists_of_bindParams_cons [Language] {model : Env NodeBlock} {param : Param}
    {params : List Param} {p p' : Page} {args : Env NodeBlock}
    (h : bindParams model (param :: params) p = .ok (args, p')) :
    ∃ v q rest, bindParam model param p = .ok (v, q) ∧ bindParams model params q = .ok (rest, p') ∧
      args = (param.name, v) :: rest := by
  rw [bindParams] at h
  cases hparam : bindParam model param p with
  | error e => rw [hparam] at h; cases h
  | ok bound =>
      rw [hparam] at h
      cases hrest : bindParams model params bound.2 with
      | error e => simp only [bind, Except.bind, hrest] at h; cases h
      | ok rest =>
          simp only [bind, Except.bind, hrest] at h
          cases h
          exact ⟨_, _, _, rfl, hrest, rfl⟩

end Bundle

namespace Rendering

open Value

variable {ok : Value NodeBlock → Prop}

theorem all_convert (hshown : ∀ w, ok (.shown w)) {v : Value NodeBlock} (h : v.All ok)
    (given wanted : ParamType) : (convert v given wanted).All ok := by
  cases wanted with
  | text =>
      rw [convert]
      split
      · exact h
      · trivial
  | content => exact all_asContent hshown h
  | _ => exact h

theorem allEntries_bindRound {env : Env NodeBlock} (henv : AllEntries ok env) (item index : Bytes)
    {entry : Value NodeBlock × Value NodeBlock} (hentry : All ok entry.1 ∧ All ok entry.2) :
    AllEntries ok (bindRound env item index entry) := by
  rw [bindRound]
  split
  · exact ⟨hentry.2, henv⟩
  · exact ⟨hentry.1, hentry.2, henv⟩

theorem all_required {model : Env NodeBlock} (hmodel : AllEntries ok model) {name : Bytes}
    {v : Value NodeBlock} (h : model.required name = .ok v) : v.All ok := by
  rw [Env.required, Env.get?] at h
  cases hfind : model.find? (·.1 == name) with
  | none => rw [hfind] at h; cases h
  | some entry =>
      rw [hfind] at h
      cases h
      exact allEntries_iff.1 hmodel entry (List.mem_of_find?_eq_some hfind)

variable [Language] [LawfulLanguage]

theorem all_valueOf {env : Env NodeBlock} (henv : AllEntries ok env) (types : Types)
    (e : Expression) (p : Page) : (valueOf types env e p).1.All ok := by
  rw [valueOf]
  split
  · exact all_get henv _
  · split
    · exact all_toValue _
    · refine p.all_evaluate (allEntries_iff.2 fun entry hentry => ?_) e
      obtain ⟨n, -, hn⟩ := List.mem_filterMap.1 hentry
      obtain ⟨v, hv, rfl⟩ := Option.map_eq_some_iff.1 hn
      have hget : env.get n = v := by rw [Env.get, hv, Option.getD_some]
      exact hget ▸ all_get henv n

/-! ## Arguments -/

section Arguments

variable (hshown : ∀ w, ok (.shown w)) {env : Env NodeBlock} (henv : AllEntries ok env)
include hshown henv

theorem all_argument (types : Types) {as : List Arg}
    (hblocks : ∀ pos a body, .content pos a body ∈ as → ok (.block ⟨body, types⟩ env))
    (param : Param) (p : Page) : (argument types env as param p).1.All ok := by
  rw [argument]
  cases hfind : Arg.find? as param.name with
  | none =>
      cases he : param.default with
      | none => exact all_convert hshown all_nil _ _
      | some e => exact all_convert hshown (all_valueOf henv [] e p) _ _
  | some a =>
      cases a with
      | content pos a body =>
          have hblock : All ok (.block ⟨body, types⟩ env) :=
            ⟨hblocks pos a body (List.mem_of_find?_eq_some hfind), henv⟩
          exact all_convert hshown hblock _ _
      | text pos a parts => exact all_convert hshown (all_text _) _ _
      | expr pos a e => exact all_convert hshown (all_valueOf henv types e p) _ _

theorem all_arguments (types : Types) {as : List Arg}
    (hblocks : ∀ pos a body, .content pos a body ∈ as → ok (.block ⟨body, types⟩ env))
    (params : List Param) (p : Page) : AllEntries ok (arguments types env as params p).1 := by
  induction params generalizing p with
  | nil => exact trivial
  | cons param params ih => exact ⟨all_argument hshown henv types hblocks param p, ih _⟩

end Arguments

omit [LawfulLanguage] in
theorem names_arguments (types : Types) (env : Env NodeBlock) (as : List Arg) (params : List Param)
    (p : Page) : (arguments types env as params p).1.map (·.1) = params.map (·.name) := by
  induction params generalizing p with
  | nil => rfl
  | cons param params ih => exact congrArg (param.name :: ·) (ih _)

theorem all_builtinValue {env : Env NodeBlock} (henv : AllEntries ok env) (types : Types)
    (as : List Arg) (p : Page) : (builtinValue types env as p).1.All ok := by
  rw [builtinValue]
  split
  · trivial
  · exact all_valueOf henv types _ p
  · trivial

/-! ## Models -/

section Models

variable (hshown : ∀ w, ok (.shown w)) {model : Env NodeBlock} (hmodel : AllEntries ok model)
include hshown hmodel

theorem all_bindParam {param : Param} {p p' : Page} {v : Value NodeBlock}
    (h : Bundle.bindParam model param p = .ok (v, p')) : v.All ok := by
  have hgiven (f : Value NodeBlock → Value NodeBlock) (hf : ∀ w, All ok w → All ok (f w))
      (h : ((model.required param.name).map f).map (·, p) = .ok (v, p')) : v.All ok := by
    cases hw : model.required param.name with
    | error e => rw [hw] at h; cases h
    | ok w =>
        rw [hw] at h
        cases h
        exact hf w (all_required hmodel hw)
  rw [Bundle.bindParam] at h
  split at h
  · cases htype : param.type with
    | text =>
        simp only [htype] at h
        cases hs : model.requiredText param.name with
        | error e => rw [hs] at h; cases h
        | ok s =>
            rw [hs] at h
            cases h
            exact all_text s
    | content =>
        simp only [htype] at h
        exact hgiven asContent (fun _ => all_asContent hshown) h
    | _ =>
        simp only [htype] at h
        refine hgiven id (fun _ h => h) ?_
        rw [← h]
        cases model.required param.name <;> rfl
  · have hdefault : All ok (Bundle.defaultValue param p).1 := by
      rw [Bundle.defaultValue]
      cases param.default with
      | none => exact all_nil
      | some e =>
          have hempty : AllEntries ok [] := trivial
          exact all_convert hshown (all_valueOf hempty [] e p) _ _
    cases h
    split
    · exact all_text _
    · exact hdefault

theorem all_bindParams {params : List Param} {p p' : Page} {args : Env NodeBlock}
    (h : Bundle.bindParams model params p = .ok (args, p')) : AllEntries ok args := by
  induction params generalizing p args with
  | nil =>
      cases h
      trivial
  | cons param params ih =>
      obtain ⟨v, q, rest, hparam, hrest, rfl⟩ := Bundle.exists_of_bindParams_cons h
      exact ⟨all_bindParam hshown hmodel hparam, ih hrest⟩

end Models

omit [LawfulLanguage] in
theorem names_bindParams {model : Env NodeBlock} {params : List Param} {p p' : Page}
    {args : Env NodeBlock} (h : Bundle.bindParams model params p = .ok (args, p')) :
    args.map (·.1) = params.map (·.name) := by
  induction params generalizing p args with
  | nil =>
      cases h
      rfl
  | cons param params ih =>
      obtain ⟨v, q, rest, -, hrest, rfl⟩ := Bundle.exists_of_bindParams_cons h
      exact congrArg (param.name :: ·) (ih hrest)

end Rendering

end TagLoom

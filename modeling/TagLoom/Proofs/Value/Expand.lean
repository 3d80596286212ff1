import TagLoom.Rendering
import TagLoom.Proofs.Expr.Graft
import TagLoom.Proofs.Page.Failure

/-!
# Values under another code of blocks

`Value.expand g` gives each block the code and the names that `g` finds in its code.  Everything a
renderer does with a value apart from running its blocks commutes with it.
-/

namespace TagLoom

variable {α β γ : Type}

namespace Value

mutual

def expand (g : α → β × Env β) : Value α → Value β
  | .nil => .nil
  | .bool b => .bool b
  | .int kind n => .int kind n
  | .float x => .float x
  | .text s => .text s
  | .bytes s => .bytes s
  | .list kind items => .list kind (expandItems g items)
  | .unmade kind => .unmade kind
  | .record entries => .record (expandEntries g entries)
  | .table kind entries => .table kind (expandRows g entries)
  | .noContent => .noContent
  | .supplied kind s => .supplied kind s
  | .shown v => .shown (expand g v)
  | .block code _ => .block (g code).1 (g code).2

def expandItems (g : α → β × Env β) : List (Value α) → List (Value β)
  | [] => []
  | v :: vs => expand g v :: expandItems g vs

def expandEntries (g : α → β × Env β) : List (Bytes × Value α) → List (Bytes × Value β)
  | [] => []
  | (k, v) :: entries => (k, expand g v) :: expandEntries g entries

def expandRows (g : α → β × Env β) : List (Key × Value α) → List (Key × Value β)
  | [] => []
  | (k, v) :: entries => (k, expand g v) :: expandRows g entries

end

theorem expandEntries_eq_map (g : α → β × Env β) (entries : List (Bytes × Value α)) :
    expandEntries g entries = entries.map fun e => (e.1, expand g e.2) := by
  induction entries with
  | nil => rfl
  | cons e es ih => rw [expandEntries, ih, List.map_cons]

mutual

theorem graft_expand (g : α → β × Env β) (v : Value α) : graft (expand g) v = expand g v := by
  cases v with
  | list kind items => rw [graft, expand, graftItems_expand g items]
  | record entries => rw [graft, expand, graftEntries_expand g entries]
  | table kind entries => rw [graft, expand, graftRows_expand g entries]
  | supplied kind s | shown v | block code env => rw [graft]
  | _ => rw [graft, expand]

theorem graftItems_expand (g : α → β × Env β) (items : List (Value α)) :
    graftItems (expand g) items = expandItems g items := by
  cases items with
  | nil => rfl
  | cons v vs => rw [graftItems, expandItems, graft_expand g v, graftItems_expand g vs]

theorem graftEntries_expand (g : α → β × Env β) (entries : List (Bytes × Value α)) :
    graftEntries (expand g) entries = expandEntries g entries := by
  cases entries with
  | nil => rfl
  | cons e es => rw [graftEntries, expandEntries, graft_expand g e.2, graftEntries_expand g es]

theorem graftRows_expand (g : α → β × Env β) (entries : List (Key × Value α)) :
    graftRows (expand g) entries = expandRows g entries := by
  cases entries with
  | nil => rfl
  | cons e es => rw [graftRows, expandRows, graft_expand g e.2, graftRows_expand g es]

end

theorem keepsTypes_expand (g : α → β × Env β) : KeepsTypes (expand g) := by
  intro v h
  rcases exists_of_isRenderable h with ⟨kind, s, rfl⟩ | ⟨w, rfl⟩ | ⟨code, env, rfl⟩
  · rw [expand]
    cases kind <;> exact ⟨rfl, rfl⟩
  · rw [expand]
    exact ⟨rfl, rfl⟩
  · rw [expand]
    exact ⟨rfl, rfl⟩

mutual

theorem expand_expand (g : α → β × Env β) (h : β → γ × Env γ) (v : Value α) :
    expand h (expand g v) = expand (fun code => h (g code).1) v := by
  cases v with
  | list kind items => simp only [expand, expandItems_expandItems g h items]
  | record entries => simp only [expand, expandEntries_expandEntries g h entries]
  | table kind entries => simp only [expand, expandRows_expandRows g h entries]
  | shown v => simp only [expand, expand_expand g h v]
  | _ => simp only [expand]

theorem expandItems_expandItems (g : α → β × Env β) (h : β → γ × Env γ) (items : List (Value α)) :
    expandItems h (expandItems g items) = expandItems (fun code => h (g code).1) items := by
  cases items with
  | nil => rfl
  | cons v vs => simp only [expandItems, expand_expand g h v, expandItems_expandItems g h vs]

theorem expandEntries_expandEntries (g : α → β × Env β) (h : β → γ × Env γ)
    (entries : List (Bytes × Value α)) :
    expandEntries h (expandEntries g entries) = expandEntries (fun code => h (g code).1) entries := by
  cases entries with
  | nil => rfl
  | cons e es =>
      simp only [expandEntries, expand_expand g h e.2, expandEntries_expandEntries g h es]

theorem expandRows_expandRows (g : α → β × Env β) (h : β → γ × Env γ)
    (entries : List (Key × Value α)) :
    expandRows h (expandRows g entries) = expandRows (fun code => h (g code).1) entries := by
  cases entries with
  | nil => rfl
  | cons e es => simp only [expandRows, expand_expand g h e.2, expandRows_expandRows g h es]

end

/-! ## Single values -/

theorem asContent_asContent (v : Value α) : v.asContent.asContent = v.asContent := by
  cases v <;> rfl

section

variable (g : α → β × Env β) (v : Value α)

@[simp] theorem isRenderable_expand : (expand g v).isRenderable = v.isRenderable := by
  rw [← graft_expand, isRenderable_graft (keepsTypes_expand g)]

@[simp] theorem text?_expand : (expand g v).text? = v.text? := by
  rw [← graft_expand, text?_graft (keepsTypes_expand g)]

@[simp] theorem toText_expand : (expand g v).toText = v.toText := by
  rw [← graft_expand, toText_graft (keepsTypes_expand g)]

@[simp] theorem isTruthy_expand : (expand g v).isTruthy = v.isTruthy := by
  rw [← graft_expand, isTruthy_graft (keepsTypes_expand g)]

@[simp] theorem typeName_expand : (expand g v).typeName = v.typeName := by
  rw [← graft_expand, typeName_graft (keepsTypes_expand g)]

@[simp] theorem castMessage_expand : (expand g v).castMessage = v.castMessage := by
  rw [← graft_expand, castMessage_graft (keepsTypes_expand g)]

theorem losesKey_expand : (expand g v).losesKey = v.losesKey := by
  rw [← graft_expand, losesKey_graft (keepsTypes_expand g)]

theorem expand_eq_nil_iff : expand g v = .nil ↔ v = .nil := by
  cases v <;> simp [expand]

theorem expand_eq_noContent_iff : expand g v = .noContent ↔ v = .noContent := by
  cases v <;> simp [expand]

theorem asContent_expand : (expand g v).asContent = expand g v.asContent := by
  cases v <;> simp [asContent, expand, isRenderable]

theorem entries?_expand :
    (expand g v).entries? = v.entries?.map (List.map fun e => (expand g e.1, expand g e.2)) := by
  have h := entries?_graft (keepsTypes_expand g) v
  rw [graft_expand] at h
  rw [h]
  congr 2
  funext e
  rw [graftEntry, graft_expand, graft_expand]

end

end Value

/-! ## Models and scopes -/

namespace Env

open Value

variable (g : α → β × Env β)

theorem get?_expandEntries (env : Env α) (n : Bytes) :
    Env.get? (expandEntries g env) n = (env.get? n).map (expand g) := by
  rw [Env.get?, Env.get?, expandEntries_eq_map, List.find?_map, Option.map_map, Option.map_map]
  rfl

theorem get_expandEntries (env : Env α) (n : Bytes) :
    Env.get (expandEntries g env) n = expand g (env.get n) := by
  rw [Env.get, Env.get, get?_expandEntries]
  cases env.get? n with
  | none => simp only [Option.map_none, Option.getD_none, expand]
  | some v => rfl

end Env

/-! ## Pages -/

namespace Page

open Value

variable (g : α → β × Env β) (p : Page)

theorem evaluate_expand [Language] [LawfulLanguage] (e : Expression) (env : Env α) :
    p.evaluate e (expandEntries g env) =
      (expand g (p.evaluate e env).1, (p.evaluate e env).2) := by
  have h := LawfulLanguage.evaluate_graft (keepsTypes_expand g) e env
  rw [graftEntries_expand] at h
  rw [evaluate, evaluate]
  cases p.failure with
  | some failure => simp only [expand]
  | none =>
      rw [h]
      cases Language.evaluate e env with
      | error failure => simp only [Except.map, expand]
      | ok v => simp only [Except.map, graft_expand]

theorem entries_expand (v : Value α) :
    p.entries (expand g v) =
      ((p.entries v).1.map fun e => (expand g e.1, expand g e.2), (p.entries v).2) := by
  rw [entries, entries]
  cases p.failure with
  | some failure => rfl
  | none =>
      rw [entries?_expand, typeName_expand, losesKey_expand]
      cases v.entries? with
      | none => rfl
      | some es => cases v.losesKey <;> rfl

theorem writeData_expand (v : Value α) (esc : Escape) :
    p.writeData (expand g v) esc = p.writeData v esc := by
  cases hp : p.failure with
  | some failure => simp only [writeData, hp]
  | none =>
      by_cases h : v = .nil
      · subst h
        simp only [writeData, hp, expand]
      by_cases hcontent : v = .noContent
      · subst hcontent
        simp only [writeData, hp, expand]
      have h' : expand g v ≠ .nil := fun hn => h ((expand_eq_nil_iff g v).1 hn)
      have hcontent' : expand g v ≠ .noContent :=
        fun hn => hcontent ((expand_eq_noContent_iff g v).1 hn)
      rw [writeData_of_ne_nil hp h hcontent, writeData_of_ne_nil hp h' hcontent', text?_expand,
        typeName_expand, castMessage_expand]

theorem writeMarkdown_expand (v : Value α) : p.writeMarkdown (expand g v) = p.writeMarkdown v := by
  by_cases h : v = .nil
  · subst h
    simp only [writeMarkdown, expand]
  · have h' : expand g v ≠ .nil := fun hn => h ((expand_eq_nil_iff g v).1 hn)
    rw [writeMarkdown, writeMarkdown, toText_expand] <;> assumption

theorem writeSanitized_expand (v : Value α) (policy : Bytes) :
    p.writeSanitized (expand g v) policy = p.writeSanitized v policy := by
  cases hp : p.failure with
  | some failure => simp only [writeSanitized, hp]
  | none =>
      by_cases h : v = .nil
      · subst h
        simp only [writeSanitized, hp, expand]
      · have h' : expand g v ≠ .nil := fun hn => h ((expand_eq_nil_iff g v).1 hn)
        rw [writeSanitized_of_ne_nil hp h, writeSanitized_of_ne_nil hp h', toText_expand]

end Page

/-! ## Expressions of a template -/

namespace Rendering

open Value

variable (g : α → β × Env β)

theorem bindings_expand (e : Expression) (env : Env α) :
    bindings e (expandEntries g env) = expandEntries g (bindings e env) := by
  rw [bindings, bindings, expandEntries_eq_map g (e.names.filterMap _), List.map_filterMap]
  congr 1
  funext n
  rw [Env.get?_expandEntries]
  cases env.get? n <;> rfl

theorem expand_toValue (l : Literal) : expand g (l.toValue : Value α) = l.toValue := by
  cases l <;> simp only [Literal.toValue, expand, ofInt]

theorem valueOf_expand [Language] [LawfulLanguage] (types : Types) (env : Env α) (e : Expression)
    (p : Page) :
    valueOf types (expandEntries g env) e p =
      (expand g (valueOf types env e p).1, (valueOf types env e p).2) := by
  rw [valueOf, valueOf]
  split
  · rw [Env.get_expandEntries]
  · cases e.literal? with
    | some l => simp only [expand_toValue]
    | none =>
        simp only [bindings_expand]
        exact Page.evaluate_expand g p e _

theorem textOf_expand [Language] [LawfulLanguage] (types : Types) (env : Env α) (parts : List Part)
    (p : Page) :
    textOf types (expandEntries g env) parts p = textOf types env parts p := by
  induction parts generalizing p with
  | nil => rfl
  | cons part parts ih =>
      cases part with
      | literal pos s => simp only [textOf, ih]
      | interpolation pos e => simp only [textOf, ih, valueOf_expand, toText_expand]

theorem convert_expand (v : Value α) (given wanted : ParamType) :
    convert (expand g v) given wanted = expand g (convert v given wanted) := by
  cases wanted with
  | text =>
      simp only [convert]
      split
      · rfl
      · rw [toText_expand, expand]
  | content => exact asContent_expand g v
  | unknown | value => rfl

end Rendering

end TagLoom

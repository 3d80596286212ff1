import TagLoom.Proofs.Inference.Names
import TagLoom.Proofs.Rendering.Values

/-!
# Names in scope

Where nodes stand in a tag that is being rendered: under the rounds of the loops around them, and
under the arguments of the tag.  The tags are closed when every name that is read is a variable of a
loop around or a parameter; then every name is bound where it is read, by the innermost loop that
declares it or else by its parameter.
-/

namespace TagLoom

namespace Rendering

open Node (Inside ReadsAt)
open Inference (enterLoop)

/-! ## Rounds -/

/-- One round of a loop: the names that the loop declares, and the entry that it has come to. -/
structure Round where
  item : Bytes
  index : Bytes
  entry : Value NodeBlock × Value NodeBlock

def Round.bindings (r : Round) : Env NodeBlock := bindRound [] r.item r.index r.entry

/-- The values of names under some rounds, innermost first, in a tag with some arguments. -/
def envOf (rounds : List Round) (args : Env NodeBlock) : Env NodeBlock :=
  rounds.flatMap Round.bindings ++ args

def scopeOf (rounds : List Round) : List Bytes :=
  rounds.foldr (fun r scope => enterLoop scope r.item r.index) []

theorem bindRound_eq (env : Env NodeBlock) (item index : Bytes)
    (entry : Value NodeBlock × Value NodeBlock) :
    bindRound env item index entry = Round.bindings ⟨item, index, entry⟩ ++ env := by
  simp [Round.bindings, bindRound]

theorem envOf_cons (r : Round) (rounds : List Round) (args : Env NodeBlock) :
    envOf (r :: rounds) args = bindRound (envOf rounds args) r.item r.index r.entry := by
  rw [bindRound_eq, envOf, envOf, List.flatMap_cons, List.append_assoc]

/-- A name is bound to a value: by the innermost round that declares it, or else by an argument. -/
inductive BoundTo (args : Env NodeBlock) : List Round → Bytes → Value NodeBlock → Prop where
  | round {r rounds n v} (h : Env.get? r.bindings n = some v) : BoundTo args (r :: rounds) n v
  | outer {r rounds n v} (h : Env.get? r.bindings n = none) (hv : BoundTo args rounds n v) :
      BoundTo args (r :: rounds) n v
  | param {n v} (h : Env.get? args n = some v) : BoundTo args [] n v

theorem get?_append {β : Type} (env env' : Env β) (n : Bytes) :
    Env.get? (env ++ env') n = (Env.get? env n).or (Env.get? env' n) := by
  rw [Env.get?, List.find?_append, Option.map_or]
  rfl

variable {t : LoadedTag} {args : Env NodeBlock} {rounds : List Round} {ns : List Node} {n : Bytes}

theorem BoundTo.get? {v : Value NodeBlock} (h : BoundTo args rounds n v) :
    (envOf rounds args).get? n = some v := by
  induction h with
  | round h => rw [envOf_cons, bindRound_eq, get?_append, h, Option.some_or]
  | outer h _ ih => rw [envOf_cons, bindRound_eq, get?_append, h, Option.none_or, ih]
  | param h => exact h

theorem get?_isSome_of_mem {β : Type} {env : Env β} (h : n ∈ env.map (·.1)) :
    ∃ v, env.get? n = some v := by
  obtain ⟨entry, hentry, rfl⟩ := List.mem_map.1 h
  have hfound : (env.find? (·.1 == entry.1)).isSome = true :=
    List.find?_isSome.2 ⟨entry, hentry, by simp⟩
  obtain ⟨found, hfound⟩ := Option.isSome_iff_exists.1 hfound
  exact ⟨found.2, by rw [Env.get?, hfound, Option.map_some]⟩

theorem Round.mem_bindings {r : Round} {scope : List Bytes} (h : n ∈ enterLoop scope r.item r.index)
    (hn : n ∉ scope) : n ∈ r.bindings.map (·.1) := by
  rw [enterLoop] at h
  rw [bindings, bindRound]
  split at h
  · rename_i hindex
    rw [if_pos hindex]
    simp_all
  · rename_i hindex
    rw [if_neg hindex]
    simp_all [or_comm]

theorem exists_boundTo (h : n ∈ scopeOf rounds ∨ n ∈ args.map (·.1)) :
    ∃ v, BoundTo args rounds n v := by
  induction rounds with
  | nil =>
      obtain ⟨v, hv⟩ := get?_isSome_of_mem (h.resolve_left (by simp [scopeOf]))
      exact ⟨v, .param hv⟩
  | cons r rounds ih =>
      cases hr : Env.get? r.bindings n with
      | some v => exact ⟨v, .round hr⟩
      | none =>
          have houter : n ∈ scopeOf rounds ∨ n ∈ args.map (·.1) := by
            refine h.imp_left fun hn => ?_
            by_contra hno
            obtain ⟨v, hv⟩ := get?_isSome_of_mem (Round.mem_bindings hn hno)
            rw [hr] at hv
            cases hv
          obtain ⟨v, hv⟩ := ih houter
          exact ⟨v, .outer hr hv⟩

/-! ## Places in a tag -/

section Places

variable [Language]

/-- What a loop over an expression goes through. -/
def entriesOf (types : Types) (env : Env NodeBlock) (e : Expression) (p : Page) :
    List (Value NodeBlock × Value NodeBlock) :=
  ((valueOf types env e p).2.entries (valueOf types env e p).1).1

/-- Some nodes are the body of a tag, a branch, the body of a loop or a block in it.  The rounds are
those of the loops around the nodes, innermost first. -/
inductive Lies (t : LoadedTag) (args : Env NodeBlock) : List Round → List Node → Prop where
  | whole : Lies t args [] t.body
  | yes {rounds ns p e body other} (h : Lies t args rounds ns) (hn : .cond p e body other ∈ ns) :
      Lies t args rounds body
  | no {rounds ns p e body other} (h : Lies t args rounds ns)
      (hn : .cond p e body (some other) ∈ ns) : Lies t args rounds other
  | loop {rounds ns p e body types page} (r : Round) (h : Lies t args rounds ns)
      (hn : .loop p e r.item r.index body ∈ ns)
      (hentry : r.entry ∈ entriesOf types (envOf rounds args) e page) :
      Lies t args (r :: rounds) body
  | block {rounds ns p name as q a body} (h : Lies t args rounds ns)
      (hn : .invocation p name as ∈ ns) (ha : .content q a body ∈ as) : Lies t args rounds body

theorem Lies.inside (h : Lies t args rounds ns) {inner : List Bytes} {m : Node}
    (hm : Inside (scopeOf rounds) ns inner m) : Inside [] t.body inner m := by
  induction h with
  | whole => exact hm
  | yes _ hn ih => exact ih (.yes hn hm)
  | no _ hn ih => exact ih (.no hn hm)
  | loop r _ hn _ ih => exact ih (.loop hn hm)
  | block _ hn ha ih => exact ih (.block hn ha hm)

end Places

end Rendering

open Rendering
open Node (Inside ReadsAt)

/-- Tags where every name that is read is a variable of a loop around it or a parameter, and where
defaults read no names. -/
structure Bundle.Closed (b : Bundle) : Prop where
  names : ∀ t ∈ b.tags, ∀ scope m p e, Inside [] t.body scope m → m.ReadsAt p e →
    ∀ n ∈ e.names, n ∈ scope ∨ n ∈ t.params.map (·.name)
  defaults : ∀ t ∈ b.tags, ∀ param ∈ t.params, ∀ e, param.default = some e → e.names = []

namespace Rendering

variable [Language]

/-- An expression in an environment where all its names are bound.  It is the default of a parameter,
which has no names; or a node of a tag reads it, and the environment holds the variables of the loops
around the node, innermost first, and then the parameters of the tag. -/
inductive InScope (b : Bundle) : Env NodeBlock → Expression → Prop where
  | default {t param e env} (ht : t ∈ b.tags) (hparam : param ∈ t.params)
      (he : param.default = some e) (hnames : e.names = []) : InScope b env e
  | read {t args rounds ns m p e} (ht : t ∈ b.tags)
      (hargs : args.map (·.1) = t.params.map (·.name)) (hns : Lies t args rounds ns) (hm : m ∈ ns)
      (he : m.ReadsAt p e)
      (hnames : ∀ n ∈ e.names, ∃ v, (envOf rounds args).get? n = some v ∧ BoundTo args rounds n v) :
      InScope b (envOf rounds args) e

variable {b : Bundle} {t : LoadedTag} {args : Env NodeBlock} {rounds : List Round}
  {ns : List Node}

theorem inScope_of_readsAt (hb : b.Closed) (ht : t ∈ b.tags)
    (hargs : args.map (·.1) = t.params.map (·.name)) (hns : Lies t args rounds ns) {m : Node}
    (hm : m ∈ ns) {p : Pos} {e : Expression} (he : m.ReadsAt p e) :
    InScope b (envOf rounds args) e := by
  refine .read ht hargs hns hm he fun n hn => ?_
  have hbound := hb.names t ht _ m p e (hns.inside (.here hm)) he n hn
  rw [← hargs] at hbound
  obtain ⟨v, hv⟩ := exists_boundTo hbound
  exact ⟨v, hv.get?, hv⟩

/-! ## Values with blocks -/

/-- Some nodes stand in a tag, and an environment is the one of that place. -/
def Stands (b : Bundle) (ns : List Node) (env : Env NodeBlock) : Prop :=
  ∃ t ∈ b.tags, ∃ args rounds, args.map (·.1) = t.params.map (·.name) ∧ Lies t args rounds ns ∧
    env = envOf rounds args

def InPlace (b : Bundle) : Value NodeBlock → Prop
  | .block code env => Stands b code.nodes env
  | _ => True

abbrev Scoped (b : Bundle) (v : Value NodeBlock) : Prop := v.All (InPlace b)

abbrev ScopedEntries (b : Bundle) (env : Env NodeBlock) : Prop := Value.AllEntries (InPlace b) env

theorem scopedEntries_envOf_cons (r : Round) (h : ScopedEntries b (envOf rounds args))
    (hr : Scoped b r.entry.1 ∧ Scoped b r.entry.2) :
    ScopedEntries b (envOf (r :: rounds) args) := by
  rw [envOf_cons]
  exact allEntries_bindRound h _ _ hr

end Rendering

end TagLoom

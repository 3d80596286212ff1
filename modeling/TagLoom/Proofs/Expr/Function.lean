import Mathlib.Data.List.Forall2
import TagLoom.Expr.Function
import TagLoom.Proofs.Value.Graft

/-!
# Functions do not look at what is to be rendered

Each function of the expression language that takes values only gives, for grafted arguments, the
grafted result.
-/

namespace TagLoom

open Value (graft KeepsTypes)

variable {α β : Type} {f : Value α → Value β}

namespace Expr.Function

open Value

theorem length_eq (v : Value α) : length v =
    match v.asText with
    | .ok s => .ok (.ofNat (Utf8.count s))
    | .error _ =>
        match v.length? with
        | some n => .ok (.ofNat n)
        | none => .error (.argument "len" v.typeName) := by
  cases v <;> rfl

theorem length_graft (hf : KeepsTypes f) (v : Value α) :
    length (graft f v) = (length v).map (graft f) := by
  rw [length_eq, length_eq, asText_graft hf, length?_graft hf, typeName_graft hf]
  cases v.asText with
  | ok s => simp [Except.map]
  | error e => cases v.length? <;> simp [Except.map]

theorem absolute_graft (hf : KeepsTypes f) (v : Value α) :
    absolute (graft f v) = (absolute v).map (graft f) := by
  refine @view_graft _ _ _ hf v _ (fun v => (absolute v).map (graft f)) _ (fun h => ?_)
    fun w hv hw ht => ?_
  · cases v with
    | supplied kind s | shown w | block code env => cases h
    | _ => simp [graft, absolute, Except.map, typeName]
  · rcases exists_of_isRenderable hv with ⟨kind, s, rfl⟩ | ⟨u, rfl⟩ | ⟨code, env, rfl⟩ <;>
      rcases exists_of_isRenderable hw with ⟨kind, s, rfl⟩ | ⟨u, rfl⟩ | ⟨code, env, rfl⟩ <;>
      simp only [absolute, Except.map, ht]

theorem toInt_eq (v : Value α) : toInt v =
    match v.asText with
    | .ok s =>
        match Decimal.readInt 10 s with
        | .ok n => .ok (.ofInt n)
        | .error _ => .error (.toInt s)
    | .error _ => v.asInt.map .ofInt := by
  cases v <;> rfl

theorem toInt_graft (hf : KeepsTypes f) (v : Value α) :
    toInt (graft f v) = (toInt v).map (graft f) := by
  rw [toInt_eq, toInt_eq, asText_graft hf, asInt_graft hf]
  cases v.asText with
  | ok s => cases h : Decimal.readInt 10 s <;> simp [h, Except.map]
  | error e => cases v.asInt <;> simp [Except.map]

theorem toFloat_eq (v : Value α) : toFloat v =
    match v.asText with
    | .ok s =>
        match Decimal.readFloat s with
        | .ok x => .ok (.float x)
        | .error _ => .error (.toFloat s)
    | .error _ => v.asFloat.map .float := by
  cases v <;> rfl

theorem toFloat_graft (hf : KeepsTypes f) (v : Value α) :
    toFloat (graft f v) = (toFloat v).map (graft f) := by
  rw [toFloat_eq, toFloat_eq, asText_graft hf, asFloat_graft hf]
  cases v.asText with
  | ok s => cases h : Decimal.readFloat s <;> simp [h, Except.map, graft]
  | error e => cases v.asFloat <;> simp [Except.map, graft]

theorem graft_textList (f : Value α → Value β) (parts : List Bytes) :
    graft f (textList parts) = textList parts := by
  simp only [textList, graft, graftItems_eq_map, List.map_map, Function.comp_def]

theorem graft_partList (f : Value α → Value β) (s sep : Bytes) (n : Int) :
    graft f (partList s sep n) = partList s sep n := by
  rw [partList, partList]
  split
  · rw [graft]
  · rw [graft_textList]

private theorem mapM_asText_graft (hf : KeepsTypes f) (items : List (Value α)) :
    (items.map (graft f)).mapM (·.asText) = items.mapM (·.asText) := by
  induction items with
  | nil => rfl
  | cons v vs ih => simp only [List.map_cons, List.mapM_cons, asText_graft hf, ih]

theorem joinTexts_graft (hf : KeepsTypes f) (v : Value α) (glue : Bytes) :
    joinTexts (graft f v) glue = (joinTexts v glue).map (graft f) := by
  refine @view_graft _ _ _ hf v _ (fun v => (joinTexts v glue).map (graft f))
    (joinTexts · glue) (fun h => ?_) fun w hv hw ht => ?_
  · cases v with
    | supplied kind s | shown w | block code env => cases h
    | list kind items =>
        cases kind <;> simp only [graft, joinTexts, graftItems_eq_map, mapM_asText_graft hf] <;>
          first
            | rfl
            | cases items.mapM (·.asText) <;>
                simp [bind, Except.bind, pure, Except.pure, Except.map, graft]
    | unmade kind => cases kind <;> simp [graft, joinTexts, Except.map, typeName]
    | _ => simp [graft, joinTexts, Except.map, typeName]
  · rcases exists_of_isRenderable hv with ⟨kind, s, rfl⟩ | ⟨u, rfl⟩ | ⟨code, env, rfl⟩ <;>
      rcases exists_of_isRenderable hw with ⟨kind, s, rfl⟩ | ⟨u, rfl⟩ | ⟨code, env, rfl⟩ <;>
      simp only [joinTexts, Except.map, ht]

/-! ## Extremes -/

theorem isNumber_graft (hf : KeepsTypes f) (v : Value α) :
    isNumber (graft f v) = isNumber v := by
  have hnumber {γ : Type} (v : Value γ) : isNumber v = v.number?.isSome := by cases v <;> rfl
  rw [hnumber, hnumber, number?_graft hf]

private theorem better_of_ne_nil {replaces : Value α → Value α → Except Refusal Bool}
    {best : Value α} (h : best ≠ .nil) (v : Value α) :
    better replaces best v = (replaces best v).map fun b => if b then v else best := by
  cases best <;> first | exact absurd rfl h | rfl

private theorem foldlM_graft {γ δ ε : Type} (g : γ → δ) (step : Value α → γ → Except ε (Value α))
    (step' : Value β → δ → Except ε (Value β))
    (h : ∀ best x, step' (graft f best) (g x) = (step best x).map (graft f)) (xs : List γ)
    (best : Value α) :
    (xs.map g).foldlM step' (graft f best) = (xs.foldlM step best).map (graft f) := by
  induction xs generalizing best with
  | nil => rfl
  | cons x xs ih =>
      rw [List.map_cons, List.foldlM_cons, List.foldlM_cons, h]
      cases step best x with
      | error e => rfl
      | ok b => exact ih b

private def keep (replaces : Value α → Value α → Except Refusal Bool) (best candidate : Value α) :
    Except Refusal (Value α) :=
  match candidate with
  | .nil => pure best
  | candidate => better replaces best candidate

private theorem keep_of_ne_nil {replaces : Value α → Value α → Except Refusal Bool}
    {candidate : Value α} (h : candidate ≠ .nil) (best : Value α) :
    keep replaces best candidate = better replaces best candidate := by
  cases candidate <;> first | exact absurd rfl h | rfl

private theorem extreme_eq (name : Bytes) (replaces : Value α → Value α → Except Refusal Bool)
    (args : List (Value α)) :
    extreme name replaces args =
      args.foldlM (fun best v =>
        extremeOf name replaces (args.length == 1) v >>= keep replaces best) .nil :=
  rfl

section Extreme

variable {replaces : Value α → Value α → Except Refusal Bool}
  {replaces' : Value β → Value β → Except Refusal Bool}
  (hr : ∀ a b, replaces' (graft f a) (graft f b) = replaces a b)

include hr

theorem better_graft (hf : KeepsTypes f) (best v : Value α) :
    better replaces' (graft f best) (graft f v) = (better replaces best v).map (graft f) := by
  by_cases h : best = .nil
  · rw [h, graft, better, better, Except.map]
  · rw [better_of_ne_nil h, better_of_ne_nil (graft_ne_nil hf h), hr]
    cases replaces best v with
    | error e => rfl
    | ok b => cases b <;> rfl

private theorem keep_graft (hf : KeepsTypes f) (best candidate : Value α) :
    keep replaces' (graft f best) (graft f candidate) =
      (keep replaces best candidate).map (graft f) := by
  by_cases h : candidate = .nil
  · rw [h, graft, keep, keep]
    rfl
  · rw [keep_of_ne_nil h, keep_of_ne_nil (graft_ne_nil hf h), better_graft hr hf]

end Extreme

private theorem extremeOf_of_isRenderable (name : Bytes)
    (replaces : Value α → Value α → Except Refusal Bool) (alone : Bool) {v : Value α}
    (h : v.isRenderable) :
    extremeOf name replaces alone v =
      if alone then .ok v else .error (.argument name v.typeName) := by
  rcases exists_of_isRenderable h with ⟨kind, s, rfl⟩ | ⟨w, rfl⟩ | ⟨code, env, rfl⟩ <;>
    rw [extremeOf] <;> simp

mutual

theorem extremeOf_graft {replaces : Value α → Value α → Except Refusal Bool}
    {replaces' : Value β → Value β → Except Refusal Bool} (hf : KeepsTypes f)
    (hr : ∀ a b, replaces' (graft f a) (graft f b) = replaces a b) (name : Bytes) (alone : Bool)
    (v : Value α) :
    extremeOf name replaces' alone (graft f v) =
      (extremeOf name replaces alone v).map (graft f) := by
  cases h : v.isRenderable with
  | true =>
      have h' : (graft f v).isRenderable := by rw [isRenderable_graft hf, h]
      rw [extremeOf_of_isRenderable _ _ _ h, extremeOf_of_isRenderable _ _ _ h', typeName_graft hf]
      split <;> rfl
  | false =>
      cases v with
      | supplied kind s | shown w | block code env => cases h
      | list kind items =>
          have hitems := extremeOfItems_graft hf hr name .nil items
          rw [graft] at hitems
          rw [graft, extremeOf, extremeOf, hitems]
      | bytes s =>
          have hstep (best : Value α) (c : UInt8) :
              better replaces' (graft f best) (.int .uint8 c.toNat) =
                (better replaces best (.int .uint8 c.toNat)).map (graft f) := by
            simpa only [graft] using better_graft hr hf best (.int .uint8 c.toNat)
          have hbytes := foldlM_graft id (fun best c => better replaces best (.int .uint8 c.toNat))
            (fun best c => better replaces' best (.int .uint8 c.toNat)) hstep s .nil
          rw [List.map_id, graft] at hbytes
          rw [graft, extremeOf, extremeOf, hbytes]
      | unmade kind => simp only [graft, extremeOf, Except.map]
      | int kind n | float x => simp only [graft, extremeOf, Except.map]
      | _ => cases alone <;> simp [graft, extremeOf, Except.map, typeName]

theorem extremeOfItems_graft {replaces : Value α → Value α → Except Refusal Bool}
    {replaces' : Value β → Value β → Except Refusal Bool} (hf : KeepsTypes f)
    (hr : ∀ a b, replaces' (graft f a) (graft f b) = replaces a b) (name : Bytes) (best : Value α)
    (items : List (Value α)) :
    extremeOfItems name replaces' (graft f best) (graftItems f items) =
      (extremeOfItems name replaces best items).map (graft f) := by
  cases items with
  | nil => simp only [graftItems, extremeOfItems, Except.map]
  | cons v vs =>
      simp only [graftItems, extremeOfItems, extremeOf_graft hf hr name true v]
      cases extremeOf name replaces true v with
      | error e => rfl
      | ok candidate =>
          simp only [Except.map, bind, Except.bind, isNumber_graft hf, typeName_graft hf,
            better_graft hr hf]
          cases isNumber candidate with
          | false => rfl
          | true =>
              cases better replaces best candidate with
              | error e => rfl
              | ok b => exact extremeOfItems_graft hf hr name b vs

end

theorem extreme_graft {replaces : Value α → Value α → Except Refusal Bool}
    {replaces' : Value β → Value β → Except Refusal Bool} (hf : KeepsTypes f)
    (hr : ∀ a b, replaces' (graft f a) (graft f b) = replaces a b) (name : Bytes)
    (args : List (Value α)) :
    extreme name replaces' (args.map (graft f)) =
      (extreme name replaces args).map (graft f) := by
  have hstep (best v : Value α) :
      (extremeOf name replaces' (args.length == 1) (graft f v) >>= keep replaces' (graft f best)) =
        (extremeOf name replaces (args.length == 1) v >>= keep replaces best).map (graft f) := by
    rw [extremeOf_graft hf hr]
    cases extremeOf name replaces (args.length == 1) v with
    | error e => rfl
    | ok candidate => exact keep_graft hr hf best candidate
  have h := foldlM_graft (graft f)
    (fun best v => extremeOf name replaces (args.length == 1) v >>= keep replaces best)
    (fun best v => extremeOf name replaces' (args.length == 1) v >>= keep replaces' best)
    hstep args .nil
  rw [graft] at h
  rw [extreme_eq, extreme_eq, List.length_map, h]

theorem itemOrNil_graft (hf : KeepsTypes f) (v : Value α) (index : Int) :
    itemOrNil (graft f v) index = graft f (itemOrNil v index) := by
  have h := fetch_graft hf v (.ofInt index)
  rw [graft_ofInt] at h
  rw [itemOrNil, itemOrNil, h]
  cases fetch v (.ofInt index) with
  | error e => simp only [Except.map, graft]
  | ok item => rfl

private theorem bind_asText_graft (hf : KeepsTypes f) (v : Value α)
    {k : Bytes → Except Refusal (Value α)} {k' : Bytes → Except Refusal (Value β)}
    (hk : ∀ s, k' s = (k s).map (graft f)) :
    (graft f v).asText >>= k' = (v.asText >>= k).map (graft f) := by
  rw [asText_graft hf]
  cases v.asText with
  | error e => rfl
  | ok s => exact hk s

private theorem bind_asInt_graft (hf : KeepsTypes f) (v : Value α)
    {k : Int → Except Refusal (Value α)} {k' : Int → Except Refusal (Value β)}
    (hk : ∀ n, k' n = (k n).map (graft f)) :
    (graft f v).asInt >>= k' = (v.asInt >>= k).map (graft f) := by
  rw [asInt_graft hf]
  cases v.asInt with
  | error e => rfl
  | ok n => exact hk n

/-! ## Calls -/

/-- Two ways to call a function with as many arguments; the second gives, for grafted arguments, the
grafted result of the first. -/
inductive Form.Commutes (f : Value α → Value β) : Form α → Form β → Prop
  | one {run run'} (h : ∀ v, run' (graft f v) = (run v).map (graft f)) :
      Form.Commutes f (.one run) (.one run')
  | two {run run'} (h : ∀ v w, run' (graft f v) (graft f w) = (run v w).map (graft f)) :
      Form.Commutes f (.two run) (.two run')
  | three {run run'}
      (h : ∀ u v w, run' (graft f u) (graft f v) (graft f w) = (run u v w).map (graft f)) :
      Form.Commutes f (.three run) (.three run')
  | four {run run'}
      (h : ∀ t u v w, run' (graft f t) (graft f u) (graft f v) (graft f w) =
        (run t u v w).map (graft f)) :
      Form.Commutes f (.four run) (.four run')
  | any {run run'} (h : ∀ args, run' (args.map (graft f)) = (run args).map (graft f)) :
      Form.Commutes f (.any run) (.any run')

namespace Form

theorem Commutes.call? {a : Form α} {b : Form β} (h : Commutes f a b) (args : List (Value α)) :
    b.call? (args.map (graft f)) = (a.call? args).map (Except.map (graft f)) := by
  cases h with
  | one h => rcases args with _ | ⟨v, _ | _⟩ <;> simp [Form.call?, h]
  | two h => rcases args with _ | ⟨v, _ | ⟨w, _ | _⟩⟩ <;> simp [Form.call?, h]
  | three h => rcases args with _ | ⟨u, _ | ⟨v, _ | ⟨w, _ | _⟩⟩⟩ <;> simp [Form.call?, h]
  | four h => rcases args with _ | ⟨t, _ | ⟨u, _ | ⟨v, _ | ⟨w, _ | _⟩⟩⟩⟩ <;> simp [Form.call?, h]
  | any h => simp [Form.call?, h]

theorem commutes_onText (hf : KeepsTypes f) {g : Bytes → Value α} {g' : Bytes → Value β}
    (h : ∀ s, g' s = graft f (g s)) : Commutes f (onText g) (onText g') :=
  .one fun v => bind_asText_graft hf v fun s => congrArg Except.ok (h s)

theorem commutes_onTexts (hf : KeepsTypes f) {g : Bytes → Bytes → Value α}
    {g' : Bytes → Bytes → Value β} (h : ∀ s t, g' s t = graft f (g s t)) :
    Commutes f (onTexts g) (onTexts g') :=
  .two fun v w => bind_asText_graft hf v fun s => bind_asText_graft hf w fun t =>
    congrArg Except.ok (h s t)

end Form

open Form in
theorem table_commutes (hf : KeepsTypes f) :
    List.Forall₂ (fun a b => a.1 = b.1 ∧ Commutes f a.2 b.2) (table (β := α)) (table (β := β)) := by
  have hless (a b : Value α) : Value.less (graft f a) (graft f b) = Value.less a b :=
    compareWith_graft hf _ _ _ _ a b
  have hgreater (a b : Value α) : Value.greater (graft f a) (graft f b) = Value.greater a b :=
    compareWith_graft hf _ _ _ _ a b
  have hsplit : Commutes f (.three splitUpTo) (.three splitUpTo) :=
    .three fun v w x => bind_asText_graft hf v fun s => bind_asText_graft hf w fun sep =>
      bind_asInt_graft hf x fun n => congrArg Except.ok (graft_partList f s sep n).symm
  have hreplaceAll : Commutes f (.three replaceAll) (.three replaceAll) :=
    .three fun v w x => bind_asText_graft hf v fun _ => bind_asText_graft hf w fun _ =>
      bind_asText_graft hf x fun _ => rfl
  have hreplace : Commutes f (.four replaceUpTo) (.four replaceUpTo) :=
    .four fun v w x y => bind_asText_graft hf v fun _ => bind_asText_graft hf w fun _ =>
      bind_asText_graft hf x fun _ => bind_asInt_graft hf y fun _ => rfl
  exact
    .cons ⟨rfl, .one (length_graft hf)⟩ <|
    .cons ⟨rfl, .one (absolute_graft hf)⟩ <|
    .cons ⟨rfl, .one (toInt_graft hf)⟩ <|
    .cons ⟨rfl, .one (toFloat_graft hf)⟩ <|
    .cons ⟨rfl, .one fun v => congrArg (fun s => Except.ok (Value.text s)) (plain_graft hf v)⟩ <|
    .cons ⟨rfl, commutes_onText hf fun _ => rfl⟩ <|
    .cons ⟨rfl, commutes_onText hf fun _ => rfl⟩ <|
    .cons ⟨rfl, commutes_onText hf fun _ => rfl⟩ <|
    .cons ⟨rfl, commutes_onTexts hf fun _ _ => rfl⟩ <|
    .cons ⟨rfl, commutes_onTexts hf fun _ _ => rfl⟩ <|
    .cons ⟨rfl, commutes_onTexts hf fun _ _ => rfl⟩ <|
    .cons ⟨rfl, commutes_onTexts hf fun _ _ => rfl⟩ <|
    .cons ⟨rfl, commutes_onTexts hf fun _ _ => rfl⟩ <|
    .cons ⟨rfl, commutes_onTexts hf fun _ _ => (graft_textList f _).symm⟩ <|
    .cons ⟨rfl, hsplit⟩ <|
    .cons ⟨rfl, hreplaceAll⟩ <|
    .cons ⟨rfl, hreplace⟩ <|
    .cons ⟨rfl, .one fun v => joinTexts_graft hf v []⟩ <|
    .cons ⟨rfl, .two fun v w => bind_asText_graft hf w fun glue => joinTexts_graft hf v glue⟩ <|
    .cons ⟨rfl, .any (extreme_graft hf hless _)⟩ <|
    .cons ⟨rfl, .any (extreme_graft hf hgreater _)⟩ <|
    .cons ⟨rfl, .one fun v => congrArg Except.ok (itemOrNil_graft hf v 0)⟩ <|
    .cons ⟨rfl, .one fun v => congrArg Except.ok (itemOrNil_graft hf v (-1))⟩ .nil

private theorem findSome?_graft {xs : List (String × Form α)} {ys : List (String × Form β)}
    (h : List.Forall₂ (fun a b => a.1 = b.1 ∧ a.2.Commutes f b.2) xs ys) (name : Bytes)
    (args : List (Value α)) :
    (ys.findSome? fun (n, form) =>
        if Bytes.ofString n == name then form.call? (args.map (graft f)) else none) =
      (xs.findSome? fun (n, form) =>
        if Bytes.ofString n == name then form.call? args else none).map (Except.map (graft f)) := by
  induction h with
  | nil => rfl
  | @cons a b xs ys hab _ ih =>
      obtain ⟨n, form⟩ := a
      obtain ⟨_, form'⟩ := b
      obtain ⟨rfl, hform⟩ := hab
      rw [List.findSome?_cons, List.findSome?_cons, ih]
      dsimp only at hform ⊢
      rw [hform.call? args]
      cases Bytes.ofString n == name with
      | false => rfl
      | true => cases form.call? args <;> rfl

theorem apply_graft (hf : KeepsTypes f) (name : Bytes) (args : List (Value α)) :
    apply name (args.map (graft f)) = (apply name args).map (graft f) := by
  rw [apply, apply, findSome?_graft (table_commutes hf)]
  generalize List.findSome? _ (table (β := α)) = found
  cases found with
  | none => rfl
  | some result => rfl

end Expr.Function

end TagLoom

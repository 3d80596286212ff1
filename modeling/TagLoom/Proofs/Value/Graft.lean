import TagLoom.Value.Arithmetic

/-!
# Grafting other things to render into a value

Operations on values look at data only.  Of a thing to be rendered they ask no more than the name
of its type, so every operation commutes with putting other things of the same types in the places
of those a value holds.
-/

namespace TagLoom.Value

variable {α β : Type}

mutual

/-- The same data with each thing to be rendered replaced by what `f` makes of it. -/
@[grind =] def graft (f : Value α → Value β) : Value α → Value β
  | .nil => .nil
  | .bool b => .bool b
  | .int kind n => .int kind n
  | .float x => .float x
  | .text s => .text s
  | .bytes s => .bytes s
  | .list kind items => .list kind (graftItems f items)
  | .unmade kind => .unmade kind
  | .record entries => .record (graftEntries f entries)
  | .table kind entries => .table kind (graftRows f entries)
  | .noContent => .noContent
  | .supplied kind s => f (.supplied kind s)
  | .shown v => f (.shown v)
  | .block code env => f (.block code env)

@[grind =] def graftItems (f : Value α → Value β) : List (Value α) → List (Value β)
  | [] => []
  | v :: vs => graft f v :: graftItems f vs

@[grind =]
def graftEntries (f : Value α → Value β) : List (Bytes × Value α) → List (Bytes × Value β)
  | [] => []
  | (k, v) :: entries => (k, graft f v) :: graftEntries f entries

@[grind =] def graftRows (f : Value α → Value β) : List (Key × Value α) → List (Key × Value β)
  | [] => []
  | (k, v) :: entries => (k, graft f v) :: graftRows f entries

end

/-- A replacement that keeps things to be rendered apart from data, and the names of their types. -/
def KeepsTypes (f : Value α → Value β) : Prop :=
  ∀ v, v.isRenderable → (f v).isRenderable ∧ (f v).typeName = v.typeName

theorem graftItems_eq_map (f : Value α → Value β) (items : List (Value α)) :
    graftItems f items = items.map (graft f) := by
  induction items with
  | nil => rfl
  | cons v vs ih => rw [graftItems, ih, List.map_cons]

theorem graftEntries_eq_map (f : Value α → Value β) (entries : List (Bytes × Value α)) :
    graftEntries f entries = entries.map fun e => (e.1, graft f e.2) := by
  induction entries with
  | nil => rfl
  | cons e es ih => rw [graftEntries, ih, List.map_cons]

theorem graftRows_eq_map (f : Value α → Value β) (entries : List (Key × Value α)) :
    graftRows f entries = entries.map fun e => (e.1, graft f e.2) := by
  induction entries with
  | nil => rfl
  | cons e es ih => rw [graftRows, ih, List.map_cons]

theorem length_graftEntries (f : Value α → Value β) (entries : List (Bytes × Value α)) :
    (graftEntries f entries).length = entries.length := by
  rw [graftEntries_eq_map, List.length_map]

theorem length_graftRows (f : Value α → Value β) (entries : List (Key × Value α)) :
    (graftRows f entries).length = entries.length := by
  rw [graftRows_eq_map, List.length_map]

/-! ## Things to be rendered -/

theorem exists_of_isRenderable {v : Value α} (h : v.isRenderable) :
    (∃ kind s, v = .supplied kind s) ∨ (∃ w, v = .shown w) ∨ ∃ code env, v = .block code env := by
  cases v <;> simp_all [isRenderable]

section Renderable

variable {v : Value α} (h : v.isRenderable)

include h

theorem graft_of_isRenderable (f : Value α → Value β) : graft f v = f v := by
  rcases exists_of_isRenderable h with ⟨kind, s, rfl⟩ | ⟨w, rfl⟩ | ⟨code, env, rfl⟩ <;> rw [graft]

theorem number?_of_isRenderable : v.number? = none := by
  rcases exists_of_isRenderable h with ⟨kind, s, rfl⟩ | ⟨w, rfl⟩ | ⟨code, env, rfl⟩ <;> rfl

theorem text?_of_isRenderable : v.text? = none := by
  rcases exists_of_isRenderable h with ⟨kind, s, rfl⟩ | ⟨w, rfl⟩ | ⟨code, env, rfl⟩ <;> rfl

theorem items?_of_isRenderable : v.items? = none := by
  rcases exists_of_isRenderable h with ⟨kind, s, rfl⟩ | ⟨w, rfl⟩ | ⟨code, env, rfl⟩ <;> rfl

theorem length?_of_isRenderable : v.length? = none := by
  rcases exists_of_isRenderable h with ⟨kind, s, rfl⟩ | ⟨w, rfl⟩ | ⟨code, env, rfl⟩ <;> rfl

theorem entries?_of_isRenderable : v.entries? = none := by
  rcases exists_of_isRenderable h with ⟨kind, s, rfl⟩ | ⟨w, rfl⟩ | ⟨code, env, rfl⟩ <;> rfl

theorem isNothing_of_isRenderable : v.isNothing = false := by
  rcases exists_of_isRenderable h with ⟨kind, s, rfl⟩ | ⟨w, rfl⟩ | ⟨code, env, rfl⟩ <;> rfl

theorem isTruthy_of_isRenderable : v.isTruthy = true := by
  rcases exists_of_isRenderable h with ⟨kind, s, rfl⟩ | ⟨w, rfl⟩ | ⟨code, env, rfl⟩ <;> rfl

theorem kindName_of_isRenderable : v.kindName = "func" := by
  rcases exists_of_isRenderable h with ⟨kind, s, rfl⟩ | ⟨w, rfl⟩ | ⟨code, env, rfl⟩ <;> rfl

theorem asText_of_isRenderable : v.asText = .error (.conversion v.typeName "string") := by
  rcases exists_of_isRenderable h with ⟨kind, s, rfl⟩ | ⟨w, rfl⟩ | ⟨code, env, rfl⟩ <;> rfl

theorem asBool_of_isRenderable : v.asBool = .error (.conversion v.typeName "bool") := by
  rcases exists_of_isRenderable h with ⟨kind, s, rfl⟩ | ⟨w, rfl⟩ | ⟨code, env, rfl⟩ <;> rfl

theorem asWord_of_isRenderable : v.asWord = .error (.conversion v.typeName "int") := by
  rcases exists_of_isRenderable h with ⟨kind, s, rfl⟩ | ⟨w, rfl⟩ | ⟨code, env, rfl⟩ <;> rfl

theorem asSubject_of_isRenderable : v.asSubject = .error (.conversion v.typeName "[]uint8") := by
  rcases exists_of_isRenderable h with ⟨kind, s, rfl⟩ | ⟨w, rfl⟩ | ⟨code, env, rfl⟩ <;> rfl

theorem plain_of_isRenderable : v.plain = v.typeName := by
  rcases exists_of_isRenderable h with ⟨kind, s, rfl⟩ | ⟨w, rfl⟩ | ⟨code, env, rfl⟩ <;>
    rw [plain] <;> rfl

theorem literal_of_isRenderable : v.literal = "(" ++ v.typeName ++ ")" := by
  rcases exists_of_isRenderable h with ⟨kind, s, rfl⟩ | ⟨w, rfl⟩ | ⟨code, env, rfl⟩ <;>
    rw [literal] <;> rfl

theorem identical_of_isRenderable (w : Value α) : identical v w = false ∧ identical w v = false := by
  rcases exists_of_isRenderable h with ⟨kind, s, rfl⟩ | ⟨u, rfl⟩ | ⟨code, env, rfl⟩ <;>
    cases w <;> simp [identical]

end Renderable

/-! ## What operations ask of one value -/

section Views

variable {f : Value α → Value β} (hf : KeepsTypes f) (v : Value α)

include hf

/-- A view of values commutes with grafting when it sees nothing of things to be rendered but
their types. -/
theorem view_graft {γ : Type} {view : Value α → γ} {view' : Value β → γ}
    (hdata : v.isRenderable = false → view' (graft f v) = view v)
    (hleaf : ∀ w : Value β, v.isRenderable → w.isRenderable → w.typeName = v.typeName →
      view' w = view v) :
    view' (graft f v) = view v := by
  cases h : v.isRenderable with
  | false => exact hdata h
  | true =>
      rw [graft_of_isRenderable h]
      exact hleaf _ h (hf v h).1 (hf v h).2

@[simp] theorem isRenderable_graft : (graft f v).isRenderable = v.isRenderable := by
  refine view_graft hf v (fun h => ?_) (fun w hv hw _ => by rw [hv, hw])
  cases v <;> first | (simp only [graft]; rfl) | cases h

@[simp] theorem typeName_graft : (graft f v).typeName = v.typeName := by
  refine view_graft hf v (fun h => ?_) (fun w _ _ ht => ht)
  cases v <;> first | (simp only [graft]; rfl) | cases h

@[simp] theorem number?_graft : (graft f v).number? = v.number? := by
  refine view_graft hf v (fun h => ?_) fun w hv hw _ => by
    rw [number?_of_isRenderable hv, number?_of_isRenderable hw]
  cases v <;> first | (simp only [graft]; rfl) | cases h

@[simp] theorem text?_graft : (graft f v).text? = v.text? := by
  refine view_graft hf v (fun h => ?_) fun w hv hw _ => by
    rw [text?_of_isRenderable hv, text?_of_isRenderable hw]
  cases v <;> first | (simp only [graft]; rfl) | cases h

@[simp] theorem toText_graft : (graft f v).toText = v.toText := by
  rw [toText, toText, text?_graft hf]

@[simp] theorem isNothing_graft : (graft f v).isNothing = v.isNothing := by
  refine view_graft hf v (fun h => ?_) fun w hv hw _ => by
    rw [isNothing_of_isRenderable hv, isNothing_of_isRenderable hw]
  cases v <;> first | (simp only [graft]; rfl) | cases h

@[simp] theorem isTruthy_graft : (graft f v).isTruthy = v.isTruthy := by
  refine view_graft hf v (fun h => ?_) fun w hv hw _ => by
    rw [isTruthy_of_isRenderable hv, isTruthy_of_isRenderable hw]
  cases v <;> first
    | (simp only [graft, isTruthy, graftItems_eq_map, graftEntries_eq_map, graftRows_eq_map,
        List.isEmpty_map]; done)
    | cases h

@[simp] theorem kindName_graft : (graft f v).kindName = v.kindName := by
  refine view_graft hf v (fun h => ?_) fun w hv hw _ => by
    rw [kindName_of_isRenderable hv, kindName_of_isRenderable hw]
  cases v <;> first | (simp only [graft]; rfl) | cases h

@[simp] theorem length?_graft : (graft f v).length? = v.length? := by
  refine view_graft hf v (fun h => ?_) fun w hv hw _ => by
    rw [length?_of_isRenderable hv, length?_of_isRenderable hw]
  cases v <;> first
    | (simp only [graft, length?, graftItems_eq_map, graftEntries_eq_map, graftRows_eq_map,
        List.length_map]; done)
    | cases h

@[simp] theorem items?_graft : (graft f v).items? = v.items?.map (List.map (graft f)) := by
  refine @view_graft _ _ _ hf v _ (fun v => v.items?.map (List.map (graft f))) _ (fun h => ?_)
    fun w hv hw _ => by rw [items?_of_isRenderable hv, items?_of_isRenderable hw]; rfl
  cases v <;> first
    | (simp [graft, items?, graftItems_eq_map]; done)
    | cases h

@[simp] theorem asText_graft : (graft f v).asText = v.asText := by
  refine view_graft hf v (fun h => ?_) fun w hv hw ht => by
    rw [asText_of_isRenderable hv, asText_of_isRenderable hw, ht]
  cases v <;> first | (simp only [graft]; rfl) | cases h

@[simp] theorem asBool_graft : (graft f v).asBool = v.asBool := by
  refine view_graft hf v (fun h => ?_) fun w hv hw ht => by
    rw [asBool_of_isRenderable hv, asBool_of_isRenderable hw, ht]
  cases v <;> first | (simp only [graft]; rfl) | cases h

@[simp] theorem asWord_graft : (graft f v).asWord = v.asWord := by
  refine view_graft hf v (fun h => ?_) fun w hv hw ht => by
    rw [asWord_of_isRenderable hv, asWord_of_isRenderable hw, ht]
  cases v with
  | int kind n => cases kind <;> (simp only [graft]; rfl)
  | _ => first | (simp only [graft]; rfl) | cases h

@[simp] theorem asSubject_graft : (graft f v).asSubject = v.asSubject := by
  refine view_graft hf v (fun h => ?_) fun w hv hw ht => by
    rw [asSubject_of_isRenderable hv, asSubject_of_isRenderable hw, ht]
  cases v <;> first | (simp only [graft]; rfl) | cases h

@[simp] theorem asInt_graft : (graft f v).asInt = v.asInt := by
  rw [asInt, asInt, number?_graft hf, typeName_graft hf]

@[simp] theorem asFloat_graft : (graft f v).asFloat = v.asFloat := by
  rw [asFloat, asFloat, number?_graft hf, typeName_graft hf]

end Views

theorem graft_ne_nil {f : Value α → Value β} (hf : KeepsTypes f) {v : Value α} (h : v ≠ .nil) :
    graft f v ≠ .nil := by
  intro hn
  cases hr : v.isRenderable with
  | true =>
      have hr' := isRenderable_graft hf v
      rw [hn, hr] at hr'
      cases hr'
  | false => cases v <;> simp_all [graft, isRenderable]

theorem graft_ne_noContent {f : Value α → Value β} (hf : KeepsTypes f) {v : Value α}
    (h : v ≠ .noContent) : graft f v ≠ .noContent := by
  intro hn
  cases hr : v.isRenderable with
  | true =>
      have hr' := isRenderable_graft hf v
      rw [hn, hr] at hr'
      cases hr'
  | false => cases v <;> simp_all [graft, isRenderable]

/-! ## Written forms -/

section Written

variable {f : Value α → Value β}

mutual

theorem literal_graft (hf : KeepsTypes f) (v : Value α) : (graft f v).literal = v.literal := by
  refine view_graft hf v (fun h => ?_) fun w hv hw ht => by
    rw [literal_of_isRenderable hv, literal_of_isRenderable hw, ht]
  cases v with
  | supplied kind s | shown w | block code env => cases h
  | int kind n => cases kind <;> simp only [graft, literal]
  | list kind items => simp only [graft, literal, literals_graft hf items]
  | record entries => simp only [graft, literal, namedLiterals_graft hf entries]
  | table kind entries => simp only [graft, literal, keyedLiterals_graft hf entries]
  | _ => simp only [graft, literal]

theorem literals_graft (hf : KeepsTypes f) (items : List (Value α)) :
    literals (graftItems f items) = literals items := by
  cases items with
  | nil => rfl
  | cons v vs => rw [graftItems, literals, literals, literal_graft hf v, literals_graft hf vs]

theorem namedLiterals_graft (hf : KeepsTypes f) (entries : List (Bytes × Value α)) :
    namedLiterals (graftEntries f entries) = namedLiterals entries := by
  cases entries with
  | nil => rfl
  | cons e es =>
      rw [graftEntries, namedLiterals, namedLiterals, literal_graft hf e.2, namedLiterals_graft hf es]

theorem keyedLiterals_graft (hf : KeepsTypes f) (entries : List (Key × Value α)) :
    keyedLiterals (graftRows f entries) = keyedLiterals entries := by
  cases entries with
  | nil => rfl
  | cons e es =>
      rw [graftRows, keyedLiterals, keyedLiterals, literal_graft hf e.2, keyedLiterals_graft hf es]

end

mutual

theorem plain_graft (hf : KeepsTypes f) (v : Value α) : (graft f v).plain = v.plain := by
  refine view_graft hf v (fun h => ?_) fun w hv hw ht => by
    rw [plain_of_isRenderable hv, plain_of_isRenderable hw, ht]
  cases v with
  | supplied kind s | shown w | block code env => cases h
  | int kind n => cases kind <;> simp only [graft, plain]
  | list kind items => simp only [graft, plain, plains_graft hf items]
  | record entries => simp only [graft, plain, namedPlains_graft hf entries]
  | table kind entries => simp only [graft, plain, keyedPlains_graft hf entries]
  | _ => simp only [graft, plain]

theorem plains_graft (hf : KeepsTypes f) (items : List (Value α)) :
    plains (graftItems f items) = plains items := by
  cases items with
  | nil => rfl
  | cons v vs => rw [graftItems, plains, plains, plain_graft hf v, plains_graft hf vs]

theorem namedPlains_graft (hf : KeepsTypes f) (entries : List (Bytes × Value α)) :
    namedPlains (graftEntries f entries) = namedPlains entries := by
  cases entries with
  | nil => rfl
  | cons e es =>
      rw [graftEntries, namedPlains, namedPlains, plain_graft hf e.2, namedPlains_graft hf es]

theorem keyedPlains_graft (hf : KeepsTypes f) (entries : List (Key × Value α)) :
    keyedPlains (graftRows f entries) = keyedPlains entries := by
  cases entries with
  | nil => rfl
  | cons e es =>
      rw [graftRows, keyedPlains, keyedPlains, plain_graft hf e.2, keyedPlains_graft hf es]

end

theorem castMessage_graft (hf : KeepsTypes f) (v : Value α) :
    (graft f v).castMessage = v.castMessage := by
  rw [castMessage, castMessage, literal_graft hf, typeName_graft hf]

end Written

/-! ## Operations -/

section Operations

variable {f : Value α → Value β}

private theorem add_eq (a b : Value α) :
    add a b =
      match a.asText, b.asText with
      | .ok s, .ok t => .ok (.text (s ++ t))
      | _, _ => arithmetic "+" (· + ·) (· + ·) a b := by
  cases a <;> cases b <;> rfl

private theorem compareWith_eq (op : String) (onInts : Int → Int → Bool)
    (onFloats : Float → Float → Bool) (onTexts : Bytes → Bytes → Bool) (a b : Value α) :
    compareWith op onInts onFloats onTexts a b =
      match a.asText, b.asText with
      | .ok s, .ok t => .ok (onTexts s t)
      | _, _ =>
          match a.number?, b.number? with
          | some (.int m), some (.int n) => .ok (onInts (wrapInt m) (wrapInt n))
          | some x, some y => .ok (onFloats x.toFloat y.toFloat)
          | _, _ => .error (.operands op a.typeName b.typeName) := by
  cases a <;> cases b <;> rfl

private theorem scalarEqual_eq (a b : Value α) :
    scalarEqual a b =
      match a.asText, b.asText with
      | .ok s, .ok t => s == t
      | _, _ =>
          match a.asBool, b.asBool with
          | .ok x, .ok y => x == y
          | _, _ =>
              match a.number?, b.number? with
              | some (.int m), some (.int n) => wrapInt m == wrapInt n
              | some x, some y => x.toFloat == y.toFloat
              | _, _ => (a.isNothing && b.isNothing) || identical a b := by
  cases a <;> cases b <;> rfl

@[simp] theorem graft_ofInt (n : Int) : graft f (.ofInt n) = .ofInt n := by rw [ofInt, graft, ofInt]

@[simp] theorem graft_ofNat (n : Nat) : graft f (.ofNat n) = .ofNat n := by rw [ofNat, graft, ofNat]

theorem arithmetic_graft (hf : KeepsTypes f) (op : String) (onInts : Int → Int → Int)
    (onFloats : Float → Float → Float) (a b : Value α) :
    arithmetic op onInts onFloats (graft f a) (graft f b) =
      (arithmetic op onInts onFloats a b).map (graft f) := by
  simp only [arithmetic, number?_graft hf, typeName_graft hf]
  split <;> simp [Except.map, graft]

theorem add_graft (hf : KeepsTypes f) (a b : Value α) :
    add (graft f a) (graft f b) = (add a b).map (graft f) := by
  rw [add_eq, add_eq, asText_graft hf, asText_graft hf, arithmetic_graft hf]
  split <;> simp [Except.map, graft]

theorem divide_graft (hf : KeepsTypes f) (a b : Value α) :
    divide (graft f a) (graft f b) = (divide a b).map (graft f) := by
  simp only [divide, number?_graft hf, typeName_graft hf]
  split <;> simp [Except.map, graft]

theorem modulo_graft (hf : KeepsTypes f) (a b : Value α) :
    modulo (graft f a) (graft f b) = (modulo a b).map (graft f) := by
  simp only [modulo, number?_graft hf, typeName_graft hf]
  split
  · split <;> simp [Except.map]
  · simp [Except.map]

theorem power_graft (hf : KeepsTypes f) (a b : Value α) :
    power (graft f a) (graft f b) = (power a b).map (graft f) := by
  simp only [power, asFloat_graft hf]
  cases a.asFloat <;> cases b.asFloat <;> simp [bind, Except.bind, pure, Except.pure, Except.map, graft]

theorem negate_graft (hf : KeepsTypes f) (v : Value α) :
    negate (graft f v) = (negate v).map (graft f) := by
  refine @view_graft _ _ _ hf v _ (fun v => v.negate.map (graft f)) _ (fun h => ?_)
    fun w hv hw ht => ?_
  · cases v with
    | supplied kind s | shown w | block code env => cases h
    | _ => simp [graft, negate, Except.map, typeName]
  · rcases exists_of_isRenderable hv with ⟨kind, s, rfl⟩ | ⟨u, rfl⟩ | ⟨code, env, rfl⟩ <;>
      rcases exists_of_isRenderable hw with ⟨kind, s, rfl⟩ | ⟨u, rfl⟩ | ⟨code, env, rfl⟩ <;>
      simp only [negate, Except.map, ht]

theorem compareWith_graft (hf : KeepsTypes f) (op : String) (onInts : Int → Int → Bool)
    (onFloats : Float → Float → Bool) (onTexts : Bytes → Bytes → Bool) (a b : Value α) :
    compareWith op onInts onFloats onTexts (graft f a) (graft f b) =
      compareWith op onInts onFloats onTexts a b := by
  simp only [compareWith_eq, asText_graft hf, number?_graft hf, typeName_graft hf]

private theorem find?_graftEntries (k : Bytes) (entries : List (Bytes × Value α)) :
    (graftEntries f entries).find? (·.1 == k) =
      (entries.find? (·.1 == k)).map fun e => (e.1, graft f e.2) := by
  rw [graftEntries_eq_map, List.find?_map]
  rfl

private theorem find?_graftRows (k : Key) (entries : List (Key × Value α)) :
    (graftRows f entries).find? (·.1.same k) =
      (entries.find? (·.1.same k)).map fun e => (e.1, graft f e.2) := by
  rw [graftRows_eq_map, List.find?_map]
  rfl

mutual

theorem identical_graft (hf : KeepsTypes f) (a b : Value α) :
    identical (graft f a) (graft f b) = identical a b := by
  cases ha : a.isRenderable with
  | true =>
      have ha' : (graft f a).isRenderable := by rw [isRenderable_graft hf, ha]
      rw [(identical_of_isRenderable ha _).1, (identical_of_isRenderable ha' _).1]
  | false =>
      cases hb : b.isRenderable with
      | true =>
          have hb' : (graft f b).isRenderable := by rw [isRenderable_graft hf, hb]
          rw [(identical_of_isRenderable hb _).2, (identical_of_isRenderable hb' _).2]
      | false =>
          cases a with
          | supplied kind s | shown w | block code env => cases ha
          | list kind items =>
              cases b with
              | list kind' items' => simp only [graft, identical, identicalItems_graft hf items items']
              | supplied kind s | shown w | block code env => cases hb
              | _ => simp only [graft, identical]
          | record entries =>
              cases b with
              | record entries' =>
                  simp only [graft, identical, identicalEntries_graft hf entries entries',
                    length_graftEntries]
              | supplied kind s | shown w | block code env => cases hb
              | _ => simp only [graft, identical]
          | table kind entries =>
              cases b with
              | table kind' entries' =>
                  simp only [graft, identical, identicalRows_graft hf entries entries',
                    length_graftRows]
              | supplied kind s | shown w | block code env => cases hb
              | _ => simp only [graft, identical]
          | _ =>
              cases b with
              | supplied kind s | shown w | block code env => cases hb
              | _ => simp only [graft, identical]

theorem identicalItems_graft (hf : KeepsTypes f) (xs ys : List (Value α)) :
    identicalItems (graftItems f xs) (graftItems f ys) = identicalItems xs ys := by
  cases xs with
  | nil => cases ys <;> simp only [graftItems, identicalItems]
  | cons x xs =>
      cases ys with
      | nil => simp only [graftItems, identicalItems]
      | cons y ys =>
          simp only [graftItems, identicalItems, identical_graft hf x y,
            identicalItems_graft hf xs ys]

theorem identicalEntries_graft (hf : KeepsTypes f) (xs ys : List (Bytes × Value α)) :
    identicalEntries (graftEntries f xs) (graftEntries f ys) = identicalEntries xs ys := by
  cases xs with
  | nil => simp only [graftEntries, identicalEntries]
  | cons e xs =>
      cases e with
      | mk k x =>
          simp only [graftEntries, identicalEntries, find?_graftEntries, identicalEntries_graft hf xs ys]
          cases ys.find? (·.1 == k) with
          | none => rfl
          | some y => simp only [Option.map_some, identical_graft hf x y.2]

theorem identicalRows_graft (hf : KeepsTypes f) (xs ys : List (Key × Value α)) :
    identicalRows (graftRows f xs) (graftRows f ys) = identicalRows xs ys := by
  cases xs with
  | nil => simp only [graftRows, identicalRows]
  | cons e xs =>
      cases e with
      | mk k x =>
          simp only [graftRows, identicalRows, find?_graftRows, identicalRows_graft hf xs ys]
          cases ys.find? (·.1.same k) with
          | none => rfl
          | some y => simp only [Option.map_some, identical_graft hf x y.2]

end

theorem scalarEqual_graft (hf : KeepsTypes f) (a b : Value α) :
    scalarEqual (graft f a) (graft f b) = scalarEqual a b := by
  simp only [scalarEqual_eq, asText_graft hf, asBool_graft hf, number?_graft hf,
    isNothing_graft hf, identical_graft hf]

theorem listsCompare_graft (hf : KeepsTypes f) (a b : Value α) :
    listsCompare (graft f a) (graft f b) = listsCompare a b := by
  simp only [listsCompare, typeName_graft hf]

private theorem equal_eq_of_ne_list (a b : Value α) (h : ∀ kind items, a ≠ .list kind items) :
    equal a b =
      match a.items?, b.items? with
      | some xs, some ys =>
          if (a.isNothing && b.isNothing) || !listsCompare a b then a.isNothing && b.isNothing
          else xs.length == ys.length && (xs.zip ys).all fun (x, y) => scalarEqual x y
      | _, _ => scalarEqual a b := by
  rw [equal.eq_def]
  cases a with
  | list kind items => exact absurd rfl (h _ _)
  | _ => rfl

private theorem graft_ne_list (hf : KeepsTypes f) {a : Value α}
    (h : ∀ kind items, a ≠ .list kind items) : ∀ kind items, graft f a ≠ .list kind items := by
  intro kind items hl
  cases ha : a.isRenderable with
  | true =>
      have hr := isRenderable_graft hf a
      rw [hl, ha] at hr
      cases hr
  | false => cases a <;> simp_all [graft, isRenderable]

private theorem all_zip_graft (hf : KeepsTypes f) (xs ys : List (Value α)) :
    ((xs.map (graft f)).zip (ys.map (graft f))).all (fun (x, y) => scalarEqual x y) =
      (xs.zip ys).all fun (x, y) => scalarEqual x y := by
  rw [List.zip_map, List.all_map]
  congr 1
  funext e
  exact scalarEqual_graft hf e.1 e.2

private theorem equal_graft_of_ne_list (hf : KeepsTypes f) (a b : Value α)
    (h : ∀ kind items, a ≠ .list kind items) : equal (graft f a) (graft f b) = equal a b := by
  rw [equal_eq_of_ne_list _ _ (graft_ne_list hf h), equal_eq_of_ne_list _ b h, items?_graft hf,
    items?_graft hf, isNothing_graft hf, isNothing_graft hf, listsCompare_graft hf,
    scalarEqual_graft hf]
  cases a.items? with
  | none => rfl
  | some xs =>
      cases b.items? with
      | none => rfl
      | some ys => simp only [Option.map_some, List.length_map, all_zip_graft hf]

mutual

theorem equal_graft (hf : KeepsTypes f) (a b : Value α) :
    equal (graft f a) (graft f b) = equal a b := by
  cases a with
  | list kind xs =>
      have hl := listsCompare_graft hf (.list kind xs) b
      rw [graft] at hl
      rw [graft, equal, equal, items?_graft hf, hl]
      cases b.items? with
      | none => rfl
      | some ys => simp only [Option.map_some, equalItems_graft hf xs ys]
  | _ => exact equal_graft_of_ne_list hf _ b (by simp)

theorem equalItems_graft (hf : KeepsTypes f) (xs ys : List (Value α)) :
    equalItems (graftItems f xs) (ys.map (graft f)) = equalItems xs ys := by
  cases xs with
  | nil => cases ys <;> simp only [graftItems, List.map, equalItems]
  | cons x xs =>
      cases ys with
      | nil => simp only [graftItems, List.map, equalItems]
      | cons y ys =>
          simp only [graftItems, List.map, equalItems, equal_graft hf x y, equalItems_graft hf xs ys]

end

/-! ## Members and parts -/

theorem itemAt_map {γ δ : Type} (g : γ → δ) (items : List γ) (index : Int) :
    itemAt (items.map g) index = (itemAt items index).map g := by
  by_cases h : position index items.length < 0
  · simp [itemAt, h, Except.map]
  · cases h' : items[(position index items.length).toNat]? <;> simp [itemAt, h, h', Except.map]

theorem part_map {γ δ : Type} (g : γ → δ) (items : List γ) (low high : Int) :
    part (items.map g) low high = (part items low high).map g := by
  simp only [part, List.length_map, List.map_drop, List.map_take]

theorem get_graftEntries (f : Value α → Value β) (env : Env α) (k : Bytes) :
    Env.get (graftEntries f env) k = graft f (Env.get env k) := by
  rw [Env.get, Env.get, Env.get?, Env.get?, find?_graftEntries]
  cases env.find? (·.1 == k) with
  | none => simp [graft]
  | some e => simp

def nameKey? : Value α → Option Bytes
  | .text s => some s
  | .nil => some []
  | _ => none

def numberKey? : Value α → Option Int
  | .int .int n => some n
  | .nil => some 0
  | _ => none

theorem nameKey?_graft (hf : KeepsTypes f) (v : Value α) : (graft f v).nameKey? = v.nameKey? := by
  refine view_graft hf v (fun h => ?_) fun w hv hw _ => ?_
  · cases v with
    | supplied kind s | shown w | block code env => cases h
    | _ => simp only [graft, nameKey?]
  · rcases exists_of_isRenderable hv with ⟨kind, s, rfl⟩ | ⟨u, rfl⟩ | ⟨code, env, rfl⟩ <;>
      rcases exists_of_isRenderable hw with ⟨kind, s, rfl⟩ | ⟨u, rfl⟩ | ⟨code, env, rfl⟩ <;> rfl

theorem numberKey?_graft (hf : KeepsTypes f) (v : Value α) :
    (graft f v).numberKey? = v.numberKey? := by
  refine view_graft hf v (fun h => ?_) fun w hv hw _ => ?_
  · cases v with
    | supplied kind s | shown w | block code env => cases h
    | int kind n => cases kind <;> simp only [graft, numberKey?]
    | _ => simp only [graft, numberKey?]
  · rcases exists_of_isRenderable hv with ⟨kind, s, rfl⟩ | ⟨u, rfl⟩ | ⟨code, env, rfl⟩ <;>
      rcases exists_of_isRenderable hw with ⟨kind, s, rfl⟩ | ⟨u, rfl⟩ | ⟨code, env, rfl⟩ <;> rfl

private theorem fetch_record (entries : List (Bytes × Value α)) (key : Value α) :
    fetch (.record entries) key =
      match key.nameKey? with
      | some k => .ok (Env.get entries k)
      | none => .error (.keyType key.typeName "string") := by
  cases key <;> rfl

theorem key?_graft (hf : KeepsTypes f) (v : Value α) : (graft f v).key? = v.key? := by
  refine view_graft hf v (fun h => ?_) fun w hv hw _ => ?_
  · cases v with
    | supplied kind s | shown w | block code env => cases h
    | _ => simp only [graft, key?]
  · rcases exists_of_isRenderable hv with ⟨kind, s, rfl⟩ | ⟨u, rfl⟩ | ⟨code, env, rfl⟩ <;>
      rcases exists_of_isRenderable hw with ⟨kind, s, rfl⟩ | ⟨u, rfl⟩ | ⟨code, env, rfl⟩ <;> rfl

private theorem keyIn_ints (v : Value α) :
    keyIn .ints v =
      match v.numberKey? with
      | some n => .ok (.int .int n)
      | none => .error (.keyType v.typeName "int") := by
  cases v with
  | int kind n => cases kind <;> rfl
  | _ => rfl

theorem keyIn_graft (hf : KeepsTypes f) (kind : TableKind) (v : Value α) :
    (graft f v).keyIn kind = v.keyIn kind := by
  cases kind with
  | ints => rw [keyIn_ints, keyIn_ints, numberKey?_graft hf, typeName_graft hf]
  | values | groups => simp only [keyIn, key?_graft hf, typeName_graft hf]

theorem graft_absent (f : Value α → Value β) (kind : TableKind) :
    graft f (absent kind) = absent kind := by
  cases kind <;> simp only [absent, graft]

private theorem fetch_of_isRenderable {v : Value α} (h : v.isRenderable) (key : Value α) :
    fetch v key = .error (.fetch key.plain v.typeName) := by
  rcases exists_of_isRenderable h with ⟨kind, s, rfl⟩ | ⟨w, rfl⟩ | ⟨code, env, rfl⟩ <;> rfl

private theorem get_graftRows (f : Value α → Value β) (kind : TableKind)
    (entries : List (Key × Value α)) (k : Key) :
    (((graftRows f entries).find? (·.1.same k)).map (·.2)).getD (absent kind) =
      graft f (((entries.find? (·.1.same k)).map (·.2)).getD (absent kind)) := by
  rw [find?_graftRows]
  cases entries.find? (·.1.same k) with
  | none => simp [graft_absent]
  | some e => simp

theorem fetch_graft (hf : KeepsTypes f) (v key : Value α) :
    fetch (graft f v) (graft f key) = (fetch v key).map (graft f) := by
  refine @view_graft _ _ _ hf v _ (fun v => (fetch v key).map (graft f))
    (fun v => fetch v (graft f key)) (fun h => ?_) fun w hv hw ht => ?_
  · cases v with
    | supplied kind s | shown w | block code env => cases h
    | list kind items =>
        simp only [graft, fetch, asInt_graft hf, graftItems_eq_map]
        cases key.asInt <;> simp [bind, Except.bind, itemAt_map, Except.map]
    | unmade kind =>
        simp only [graft, fetch, asInt_graft hf]
        cases key.asInt with
        | error e => rfl
        | ok i => exact itemAt_map (graft f) [] i
    | text s | bytes s =>
        simp only [graft, fetch, asInt_graft hf]
        cases key.asInt with
        | error e => rfl
        | ok i =>
            cases hi : itemAt s i <;>
              simp [bind, Except.bind, hi, Except.map, pure, Except.pure, graft]
    | record entries =>
        simp only [graft, fetch_record, nameKey?_graft hf, typeName_graft hf, get_graftEntries]
        cases key.nameKey? <;> rfl
    | table kind entries =>
        simp only [graft, fetch, keyIn_graft hf, get_graftRows]
        cases key.keyIn kind <;> rfl
    | _ => simp only [graft, fetch, plain_graft hf, typeName, Except.map]
  · rw [fetch_of_isRenderable hv, fetch_of_isRenderable hw, plain_graft hf, ht]
    rfl

private theorem isIn_record (needle : Value α) (entries : List (Bytes × Value α)) :
    isIn needle (.record entries) =
      match needle.nameKey? with
      | some k => .ok (entries.any (·.1 == k))
      | none => .error (.keyType needle.typeName "string") := by
  have hnil : entries.any (fun e => e.1.isEmpty) = entries.any (·.1 == []) := by
    congr 1
    funext e
    cases e.1 <;> rfl
  cases needle with
  | nil => rw [isIn, nameKey?, hnil]
  | _ => rfl

private theorem isIn_of_isRenderable {v : Value α} (h : v.isRenderable) (needle : Value α) :
    isIn needle v = .error (.membership v.typeName) := by
  rcases exists_of_isRenderable h with ⟨kind, s, rfl⟩ | ⟨w, rfl⟩ | ⟨code, env, rfl⟩ <;> rfl

theorem isIn_graft (hf : KeepsTypes f) (needle v : Value α) :
    isIn (graft f needle) (graft f v) = isIn needle v := by
  refine view_graft hf v (fun h => ?_) fun w hv hw ht => ?_
  · cases v with
    | supplied kind s | shown w | block code env => cases h
    | record entries =>
        simp only [graft, isIn_record, nameKey?_graft hf, typeName_graft hf, graftEntries_eq_map,
          List.any_map]
        rfl
    | table kind entries =>
        simp only [graft, isIn, keyIn_graft hf, graftRows_eq_map, List.any_map]
        rfl
    | list kind items =>
        have hitem : ((equal · (graft f needle)) ∘ graft f) = (equal · needle) := by
          funext item
          exact equal_graft hf item needle
        simp only [graft, isIn, items?, graftItems_eq_map, List.any_map, hitem]
    | bytes s =>
        have hbyte (n : Int) :
            equal (.int .uint8 n) (graft f needle) = equal (.int .uint8 n) needle := by
          simpa only [graft] using equal_graft hf (.int .uint8 n) needle
        simp only [graft, isIn, items?, List.any_map, Function.comp_def, hbyte]
    | _ => simp only [graft, isIn, items?, typeName, List.any_nil]
  · rw [isIn_of_isRenderable hv, isIn_of_isRenderable hw, ht]

private theorem slice_of_isRenderable {v : Value α} (h : v.isRenderable) (low high : Value α) :
    slice v low high = .error (.slice low.plain) := by
  rcases exists_of_isRenderable h with ⟨kind, s, rfl⟩ | ⟨w, rfl⟩ | ⟨code, env, rfl⟩ <;> rfl

theorem slice_graft (hf : KeepsTypes f) (v low high : Value α) :
    slice (graft f v) (graft f low) (graft f high) = (slice v low high).map (graft f) := by
  refine @view_graft _ _ _ hf v _ (fun v => (slice v low high).map (graft f))
    (fun v => slice v (graft f low) (graft f high)) (fun h => ?_) fun w hv hw _ => ?_
  · cases v with
    | supplied kind s | shown w | block code env => cases h
    | list kind items | text s | bytes s | unmade kind =>
        simp only [graft, slice, asInt_graft hf, graftItems_eq_map]
        cases low.asInt <;> cases high.asInt <;>
          simp [bind, Except.bind, pure, Except.pure, Except.map, graft, graftItems_eq_map, part_map]
    | _ => simp only [graft, slice, plain_graft hf, Except.map]
  · rw [slice_of_isRenderable hv, slice_of_isRenderable hw, plain_graft hf]
    rfl

theorem rangeOf_graft (hf : KeepsTypes f) (low high : Value α) :
    rangeOf (graft f low) (graft f high) = rangeOf low high := by
  simp only [rangeOf, asInt_graft hf]

theorem graft_consecutive (f : Value α → Value β) (first : Int) (count : Nat) :
    graft f (consecutive first count) = consecutive first count := by
  simp only [consecutive, graft, graftItems_eq_map, List.map_map, Function.comp_def, graft_ofInt]

private theorem iterated_eq (v : Value α) :
    iterated v =
      match v.asText with
      | .ok s => .ok (s.map fun c => .ok (.int .uint8 c.toNat))
      | .error _ =>
          match v.items?, v.length? with
          | some items, _ => .ok (items.map .ok)
          | none, some n => .ok (List.replicate n (.error (.noItems v.kindName)))
          | none, none => .error (.noLength v.kindName) := by
  cases v <;> rfl

theorem iterated_graft (hf : KeepsTypes f) (v : Value α) :
    iterated (graft f v) = (iterated v).map (List.map (Except.map (graft f))) := by
  rw [iterated_eq, iterated_eq, asText_graft hf, items?_graft hf, length?_graft hf, kindName_graft hf]
  cases v.asText with
  | ok s => simp [Except.map, Function.comp_def, graft]
  | error e =>
      cases v.items? with
      | some items => simp [Except.map, Function.comp_def]
      | none => cases v.length? <;> simp [Except.map]

/-! ## Entries of a collection -/

theorem graft_toValue (f : Value α → Value β) (k : Key) : graft f k.toValue = k.toValue := by
  cases k <;> simp only [Key.toValue, graft]

theorem losesKey_graft (hf : KeepsTypes f) (v : Value α) : (graft f v).losesKey = v.losesKey := by
  refine view_graft hf v (fun h => ?_) fun w hv hw _ => ?_
  · cases v with
    | supplied kind s | shown w | block code env => cases h
    | table kind entries =>
        simp only [graft, losesKey, graftRows_eq_map, List.any_map]
        rfl
    | _ => simp only [graft, losesKey]
  · rcases exists_of_isRenderable hv with ⟨kind, s, rfl⟩ | ⟨u, rfl⟩ | ⟨code, env, rfl⟩ <;>
      rcases exists_of_isRenderable hw with ⟨kind, s, rfl⟩ | ⟨u, rfl⟩ | ⟨code, env, rfl⟩ <;> rfl

def graftEntry (f : Value α → Value β) (e : Value α × Value α) : Value β × Value β :=
  (graft f e.1, graft f e.2)

private theorem map_indexed (f : Value α → Value β) (items : List (Value α)) :
    (indexed items).map (graftEntry f) = indexed (items.map (graft f)) := by
  simp only [indexed, List.zipIdx_map, List.map_map]
  congr 1

private theorem map_byKeyText (hf : KeepsTypes f) (entries : List (Value α × Value α)) :
    (byKeyText entries).map (graftEntry f) = byKeyText (entries.map (graftEntry f)) := by
  rw [byKeyText, byKeyText, List.map_mergeSort]
  intro a _ b _
  simp only [graftEntry, toText_graft hf]

theorem entries?_graft (hf : KeepsTypes f) (v : Value α) :
    (graft f v).entries? = v.entries?.map (List.map (graftEntry f)) := by
  refine @view_graft _ _ _ hf v _ (fun v => v.entries?.map (List.map (graftEntry f))) _
    (fun h => ?_) fun w hv hw _ => by
      rw [entries?_of_isRenderable hv, entries?_of_isRenderable hw]; rfl
  cases v with
  | supplied kind s | shown w | block code env => cases h
  | list kind items =>
      simp only [graft, entries?, Option.map_some, map_indexed, graftItems_eq_map]
  | bytes s => simp [graft, entries?, map_indexed, Function.comp_def]
  | record entries =>
      simp only [graft, entries?, Option.map_some, map_byKeyText hf, graftEntries_eq_map,
        List.map_map]
      congr 3
  | table kind entries =>
      simp only [graft, entries?, Option.map_some, map_byKeyText hf, graftRows_eq_map,
        List.map_map]
      congr 3
      funext e
      simp only [Function.comp_apply, graftEntry, graft_toValue]
  | int kind n =>
      cases kind <;> simp [graft, entries?, counted, Function.comp_def, graftEntry]
  | _ => simp only [graft, entries?, Option.map, List.map_nil]

end Operations

end TagLoom.Value

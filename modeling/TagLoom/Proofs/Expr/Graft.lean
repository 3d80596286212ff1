import TagLoom.Expr.Eval
import TagLoom.Proofs.Expr.Function

/-!
# Expressions do not look at what is to be rendered

The value of an expression under grafted values is the grafted value: an expression passes things
to be rendered on, and reads no more of them than the names of their types.
-/

namespace TagLoom

open Value (graft KeepsTypes)

variable {α β : Type} {f : Value α → Value β}

namespace Plan

open Value

/-! ## Evaluations -/

theorem placed_map {γ δ : Type} (g : γ → δ) (pos : Nat) (x : Except Refusal γ) :
    placed pos (x.map g) = g <$> placed pos x := by
  cases x <;> rfl

def Scope.graft (f : Value α → Value β) (scope : Scope α) : Scope β where
  env := graftEntries f scope.env
  locals := graftEntries f scope.locals
  items := scope.items.map fun (item, i) => (item.map (Value.graft f), i)

theorem listOf_graft (pos : Nat) (items : List (Value α)) :
    listOf pos (items.map (graft f)) = graft f <$> listOf pos items := by
  simp only [listOf, List.length_map, map_bind, map_pure, Value.graft, graftItems_eq_map]

/-! ## Operations -/

theorem textTest_graft (hf : KeepsTypes f) (test : Bytes → Bytes → Bool) (a b : Value α) :
    textTest test (graft f a) (graft f b) = textTest test a b := by
  simp only [textTest, isNothing_graft hf, asText_graft hf]

theorem matches_graft (hf : KeepsTypes f) (a b : Value α) :
    matches_ (graft f a) (graft f b) = matches_ a b := by
  simp only [matches_, isNothing_graft hf, asText_graft hf, asSubject_graft hf]

theorem equals_graft (hf : KeepsTypes f) (l r : StaticType) (a b : Value α) :
    equals l r (graft f a) (graft f b) = equals l r a b := by
  simp only [equals, asText_graft hf, asWord_graft hf, equal_graft hf]

private theorem answer_graft {x' x : Except Refusal Bool} (h : x' = x) (g : Bool → Bool) :
    (do return .bool (g (← x')) : Except Refusal (Value β)) =
      (do return .bool (g (← x)) : Except Refusal (Value α)).map (graft f) := by
  subst h
  cases x' with
  | error e => rfl
  | ok b => simp only [bind, Except.bind, pure, Except.pure, Except.map, Value.graft]

theorem applyBinary_graft (hf : KeepsTypes f) (op : BinaryOp) (l r : StaticType) (a b : Value α) :
    applyBinary op l r (graft f a) (graft f b) = (applyBinary op l r a b).map (graft f) := by
  cases op with
  | equal => exact answer_graft (equals_graft hf l r a b) id
  | notEqual => exact answer_graft (equals_graft hf l r a b) not
  | less | greater | greaterEqual | lessEqual =>
      exact answer_graft (compareWith_graft hf _ _ _ _ a b) id
  | isIn => exact answer_graft (isIn_graft hf a b) id
  | isMatch => exact answer_graft (matches_graft hf a b) id
  | hasPart | hasStart | hasEnd => exact answer_graft (textTest_graft hf _ a b) id
  | add => exact add_graft hf a b
  | subtract | multiply => exact arithmetic_graft hf _ _ _ a b
  | divide => exact divide_graft hf a b
  | modulo => exact modulo_graft hf a b
  | power => exact power_graft hf a b
  | or | and | coalesce | range => rfl

theorem applyUnary_graft (hf : KeepsTypes f) (op : UnaryOp) (v : Value α) :
    applyUnary op (graft f v) = (applyUnary op v).map (graft f) := by
  cases op with
  | not => exact answer_graft (asBool_graft hf v) not
  | minus => exact negate_graft hf v
  | plus => rfl

private theorem applyCall_of_ne_nil {callee : Value α} (h : callee ≠ .nil)
    (hcontent : callee ≠ .noContent) (args : List (Value α)) :
    applyCall callee args =
      if callee.isRenderable then
        match args with
        | [] => .error (.callArguments false)
        | [a] => .error (.callArgument a.typeName)
        | _ => .error (.callArguments true)
      else .error (.callOfValue callee.typeName) := by
  cases callee <;> first | exact absurd rfl h | exact absurd rfl hcontent | rfl

theorem applyCall_graft (hf : KeepsTypes f) (callee : Value α) (args : List (Value α)) :
    applyCall (graft f callee) (args.map (graft f)) = (applyCall callee args).map (graft f) := by
  by_cases h : callee = .nil
  · rw [h, Value.graft]
    rfl
  by_cases hcontent : callee = .noContent
  · rw [hcontent, Value.graft]
    rfl
  rw [applyCall_of_ne_nil h hcontent,
    applyCall_of_ne_nil (graft_ne_nil hf h) (graft_ne_noContent hf hcontent),
    isRenderable_graft hf, typeName_graft hf]
  split
  · rcases args with _ | ⟨a, _ | ⟨b, args⟩⟩
    · rfl
    · simp only [List.map, typeName_graft hf, Except.map]
    · rfl
  · rfl

theorem inInts_eq (members : List Int) (v : Value α) : inInts members v =
    match v.numberKey? with
    | some n => .ok (members.contains n)
    | none => .error (.keyType v.typeName "int") := by
  cases v with
  | int kind n => cases kind <;> rfl
  | _ => rfl

theorem inInts_graft (hf : KeepsTypes f) (members : List Int) (v : Value α) :
    inInts members (graft f v) = inInts members v := by
  rw [inInts_eq, inInts_eq, numberKey?_graft hf, typeName_graft hf]

theorem inTexts_eq (members : List Bytes) (v : Value α) : inTexts members v =
    match v.nameKey? with
    | some s => .ok (members.contains s)
    | none => .error (.keyType v.typeName "string") := by
  cases v <;> rfl

theorem inTexts_graft (hf : KeepsTypes f) (members : List Bytes) (v : Value α) :
    inTexts members (graft f v) = inTexts members v := by
  rw [inTexts_eq, inTexts_eq, nameKey?_graft hf, typeName_graft hf]

private theorem any_key_graftEntries (k : Bytes) (entries : List (Bytes × Value α)) :
    (graftEntries f entries).any (·.1 == k) = entries.any (·.1 == k) := by
  rw [graftEntries_eq_map, List.any_map]
  rfl

private theorem foldl_recordOf_graft (entries acc : List (Bytes × Value α)) :
    (graftEntries f entries).foldl
        (fun acc e => if acc.any (·.1 == e.1) then acc else acc ++ [e]) (graftEntries f acc) =
      graftEntries f
        (entries.foldl (fun acc e => if acc.any (·.1 == e.1) then acc else acc ++ [e]) acc) := by
  induction entries generalizing acc with
  | nil => rfl
  | cons e es ih =>
      have hstep : (if (graftEntries f acc).any (·.1 == e.1) then graftEntries f acc
            else graftEntries f acc ++ [(e.1, graft f e.2)]) =
          graftEntries f (if acc.any (·.1 == e.1) then acc else acc ++ [e]) := by
        rw [any_key_graftEntries]
        split <;> simp [graftEntries_eq_map]
      rw [graftEntries, List.foldl_cons, List.foldl_cons, hstep, ih]

theorem recordOf_graft (entries : List (Bytes × Value α)) :
    recordOf (graftEntries f entries) = graftEntries f (recordOf entries) :=
  foldl_recordOf_graft entries []

theorem keyTexts_graft (hf : KeepsTypes f) (entries : List (Value α × Value α)) :
    keyTexts (entries.map (graftEntry f)) = (keyTexts entries).map (graftEntries f) := by
  induction entries with
  | nil => rfl
  | cons e es ih =>
      simp only [List.map_cons, graftEntry, keyTexts, ih, asText_graft hf]
      cases keyTexts es with
      | error e => rfl
      | ok rest => cases e.1.asText <;> rfl

/-! ## Going through a collection -/

/-- What two predicates give for an item and for the grafted item agree up to `g`. -/
def Commutes {γ δ : Type} (f : Value α → Value β) (g : γ → δ) (on : Item α → Nat → Evaluation γ)
    (on' : Item β → Nat → Evaluation δ) : Prop :=
  ∀ item i, on' (item.map (graft f)) i = g <$> on item i

section Iterate

variable {holds : Item α → Nat → Evaluation Bool} {holds' : Item β → Nat → Evaluation Bool}
  {body result : Item α → Nat → Evaluation (Value α)}
  {body' result' : Item β → Nat → Evaluation (Value β)}

theorem keepWhere_graft {γ δ : Type} {g : γ → δ} {kept : Item α → Nat → Evaluation γ}
    {kept' : Item β → Nat → Evaluation δ} (hh : Commutes f id holds holds')
    (hk : Commutes f g kept kept') (items : List (Item α)) (i : Nat) :
    keepWhere holds' kept' (items.map (Except.map (graft f))) i =
      List.map g <$> keepWhere holds kept items i := by
  induction items generalizing i with
  | nil => simp [keepWhere]
  | cons v vs ih =>
      simp only [List.map_cons, keepWhere, hh v i, hk v i, ih, map_bind, id_map]
      congr 1
      funext b
      split <;> simp

theorem mapItems_graft (hb : Commutes f (graft f) body body') (items : List (Item α)) (i : Nat) :
    mapItems body' (items.map (Except.map (graft f))) i =
      List.map (graft f) <$> mapItems body items i := by
  induction items generalizing i with
  | nil => simp [mapItems]
  | cons v vs ih => simp [mapItems, hb v i, ih]

theorem findItem_graft (wanted : Bool) (hh : Commutes f id holds holds') (items : List (Item α))
    (i : Nat) :
    findItem wanted holds' (items.map (Except.map (graft f))) i =
      Option.map (Prod.map (Except.map (graft f)) id) <$> findItem wanted holds items i := by
  induction items generalizing i with
  | nil => simp [findItem]
  | cons v vs ih =>
      simp only [List.map_cons, findItem, hh v i, ih, map_bind, id_map]
      congr 1
      funext b
      split <;> simp

theorem findLastItem_graft (hh : Commutes f id holds holds') (items : List (Item α)) :
    findLastItem holds' (items.map (Except.map (graft f))) =
      Option.map (Prod.map (Except.map (graft f)) id) <$> findLastItem holds items := by
  have hback : Commutes f id (fun v i => holds v (items.length - 1 - i))
      (fun v i => holds' v (items.length - 1 - i)) :=
    fun v i => hh v _
  simp only [findLastItem, List.length_map, ← List.map_reverse,
    findItem_graft true hback items.reverse 0, bind_map_left, map_bind]
  congr 1
  funext found
  cases found <;> simp

theorem sumItems_graft (hf : KeepsTypes f) (hb : Commutes f (graft f) body body') (pos : Nat)
    (acc : Value α) (items : List (Item α)) (i : Nat) :
    sumItems pos body' (graft f acc) (items.map (Except.map (graft f))) i =
      graft f <$> sumItems pos body acc items i := by
  induction items generalizing acc i with
  | nil => simp [sumItems]
  | cons v vs ih => simp [sumItems, hb v i, add_graft hf, placed_map, ih]

def graftGroups (f : Value α → Value β) (groups : List (Key × List (Value α))) :
    List (Key × List (Value β)) :=
  groups.map fun (k, items) => (k, items.map (graft f))

theorem addToGroup_graft (key : Key) (item : Value α) (groups : List (Key × List (Value α))) :
    addToGroup key (graft f item) (graftGroups f groups) =
      graftGroups f (addToGroup key item groups) := by
  induction groups with
  | nil => rfl
  | cons group groups ih =>
      obtain ⟨k, items⟩ := group
      simp only [graftGroups, List.map_cons, addToGroup] at ih ⊢
      split <;> simp [ih]

theorem groupItems_graft (hf : KeepsTypes f) (hb : Commutes f (graft f) body body') (pos : Nat)
    (groups : List (Key × List (Value α))) (items : List (Item α)) (i : Nat) :
    groupItems pos body' (graftGroups f groups) (items.map (Except.map (graft f))) i =
      graftGroups f <$> groupItems pos body groups items i := by
  induction items generalizing groups i with
  | nil => simp [groupItems]
  | cons v vs ih =>
      simp [groupItems, hb v i, placed_map, keyIn_graft hf, addToGroup_graft, ih]

theorem graft_tableOf (groups : List (Key × List (Value α))) :
    graft f (tableOf groups) = tableOf (graftGroups f groups) := by
  simp [tableOf, graftGroups, Value.graft, graftRows_eq_map, graftItems_eq_map]

theorem iterate_graft (hf : KeepsTypes f) (hb : Commutes f (graft f) body body')
    (hr : Commutes f (graft f) result result') (fn : Iteration) (pos : Nat)
    (items : List (Item α)) :
    iterate fn pos body' result' (items.map (Except.map (graft f))) =
      graft f <$> iterate fn pos body result items := by
  have hh : Commutes f id (fun v i => body v i >>= fun w => placed pos w.asBool)
      (fun v i => body' v i >>= fun w => placed pos w.asBool) := by
    intro v i
    simp only [hb v i, bind_map_left, asBool_graft hf, id_map]
  have hu : Commutes f id (fun _ _ => pure ()) (fun _ _ => pure ()) := fun _ _ => rfl
  cases fn with
  | filter => simp [iterate, keepWhere_graft hh hr, listOf_graft]
  | map => simp [iterate, mapItems_graft hb, listOf_graft]
  | all | any | none => simp [iterate, findItem_graft _ hh, Value.graft]
  | one | count => simp [iterate, keepWhere_graft hh hu, Value.graft]
  | sum => simpa [iterate] using sumItems_graft hf hb pos (.ofInt 0) items 0
  | find strict =>
      simp only [iterate, findItem_graft _ hh, bind_map_left, map_bind]
      congr 1
      funext found
      rcases found with _ | ⟨v, i⟩
      · cases strict <;> simp [placed, Value.graft]
      · exact hr v i
  | findLast strict =>
      simp only [iterate, findLastItem_graft hh, bind_map_left, map_bind]
      congr 1
      funext found
      rcases found with _ | ⟨v, i⟩
      · cases strict <;> simp [placed, Value.graft]
      · exact hr v i
  | findIndex =>
      simp only [iterate, findItem_graft _ hh, bind_map_left, map_bind]
      congr 1
      funext found
      rcases found with _ | ⟨v, i⟩ <;> simp [Value.graft]
  | findLastIndex =>
      simp only [iterate, findLastItem_graft hh, bind_map_left, map_bind]
      congr 1
      funext found
      rcases found with _ | ⟨v, i⟩ <;> simp [Value.graft]
  | groupBy =>
      have hgroups := groupItems_graft hf hb pos [] items 0
      simp only [graftGroups, List.map_nil] at hgroups
      simp [iterate, hgroups, graft_tableOf, graftGroups]
  | other name => simp [iterate, placed]

end Iterate

/-! ## Plans -/

private theorem get?_graftEntries (env : Env α) (n : Bytes) :
    Env.get? (graftEntries f env) n = (env.get? n).map (graft f) := by
  rw [Env.get?, Env.get?, graftEntries_eq_map, List.find?_map, Option.map_map, Option.map_map]
  rfl

theorem lookup_graft (scope : Scope α) (n : Bytes) :
    lookup (scope.graft f) n = graft f (lookup scope n) := by
  simp only [lookup, Scope.graft, get?_graftEntries, get_graftEntries]
  cases scope.locals.get? n with
  | some v => rfl
  | none =>
      simp only [Option.map_none]
      split
      · rw [Value.graft]
      · rfl

theorem at_graft (scope : Scope α) (item : Item α) (i : Nat) :
    (scope.graft f).at_ (item.map (graft f)) i = (scope.at_ item i).graft f :=
  rfl

theorem endChain_apply (e : Evaluation (Value α)) (used : Nat) :
    endChain e used =
      match e used with
      | (.ok v, used) => (.ok (if v.isNothing then .nil else v), used)
      | (.error .nothing, used) => (.ok .nil, used)
      | (.error (.refusal at_), used) => (.error (.refusal at_), used) := by
  simp only [endChain, tryCatch, tryCatchThe, MonadExceptOf.tryCatch, ExceptT.tryCatch, bind,
    ExceptT.bind, ExceptT.bindCont, ExceptT.mk, StateT.bind, pure, ExceptT.pure]
  rcases e used with ⟨(_ | _) | _, used'⟩ <;> rfl

private theorem map_apply {γ δ : Type} (g : γ → δ) (e : Evaluation γ) (used : Nat) :
    (g <$> e) used = ((e used).1.map g, (e used).2) := by
  simp only [Functor.map, ExceptT.map, ExceptT.mk, bind, StateT.bind, pure]
  rcases e used with ⟨_ | _, used'⟩ <;> rfl

theorem endChain_graft (hf : KeepsTypes f) (e : Evaluation (Value α)) :
    endChain (graft f <$> e) = graft f <$> endChain e := by
  funext used
  rw [endChain_apply, map_apply, map_apply, endChain_apply]
  rcases e used with ⟨(_ | _) | v, used'⟩
  · rfl
  · simp [Except.map, Value.graft]
  · simp only [Except.map, isNothing_graft hf]
    split <;> simp [Value.graft]

private theorem eval_isIn (scope : Scope α) (n : Note) (l r : Plan)
    (hint : ∀ m members, r ≠ .intSet m members) (htext : ∀ m members, r ≠ .textSet m members) :
    eval scope (.binary n .isIn l r) = (do
      let a ← eval scope l
      let b ← eval scope r
      placed n.pos (applyBinary .isIn l.type r.type a b)) := by
  rw [eval]
  congr 1
  funext a
  cases r with
  | intSet m members => exact absurd rfl (hint m members)
  | textSet m members => exact absurd rfl (htext m members)
  | _ => rfl

/-- The value of a plan under grafted values is the grafted value. -/
def Carries (f : Value α → Value β) (p : Plan) : Prop :=
  ∀ scope, eval (scope.graft f) p = graft f <$> eval scope p

section Cases

variable {l r : Plan}

theorem Carries.and_or (hf : KeepsTypes f) (hl : Carries f l) (hr : Carries f r) (n : Note) :
    Carries f (.binary n .and l r) ∧ Carries f (.binary n .or l r) := by
  constructor <;>
  · intro scope
    simp only [eval, hl scope, hr scope, bind_map_left, asBool_graft hf, map_bind]
    congr 1
    funext a
    congr 1
    funext b
    split <;> simp [Value.graft]

theorem Carries.coalesce (hf : KeepsTypes f) (hl : Carries f l) (hr : Carries f r) (n : Note) :
    Carries f (.binary n .coalesce l r) := by
  intro scope
  simp only [eval, hl scope, hr scope, bind_map_left, isNothing_graft hf, map_bind]
  congr 1
  funext a
  split <;> simp

theorem Carries.isIn (hf : KeepsTypes f) (hl : Carries f l) (hr : Carries f r) (n : Note) :
    Carries f (.binary n .isIn l r) := by
  intro scope
  cases r with
  | intSet m members => simp [eval, hl scope, inInts_graft hf, Value.graft]
  | textSet m members => simp [eval, hl scope, inTexts_graft hf, Value.graft]
  | _ =>
      rw [eval_isIn _ _ _ _ (by simp) (by simp), eval_isIn _ _ _ _ (by simp) (by simp)]
      simp only [hl scope, hr scope, bind_map_left, map_bind, applyBinary_graft hf, placed_map]

theorem Carries.binary (hf : KeepsTypes f) (hl : Carries f l) (hr : Carries f r) (n : Note)
    (op : BinaryOp) : Carries f (.binary n op l r) := by
  cases op with
  | and => exact (hl.and_or hf hr n).1
  | or => exact (hl.and_or hf hr n).2
  | coalesce => exact hl.coalesce hf hr n
  | range =>
      intro scope
      simp [eval, hl scope, hr scope, rangeOf_graft hf, graft_consecutive]
  | isIn => exact hl.isIn hf hr n
  | _ =>
      intro scope
      simp only [eval, hl scope, hr scope, bind_map_left, map_bind, applyBinary_graft hf, placed_map]

theorem Carries.member (hf : KeepsTypes f) (hl : Carries f l) (hr : Carries f r) (n : Note)
    (optional : Bool) : Carries f (.member n l r optional) := by
  intro scope
  simp only [eval, hl scope, hr scope, bind_map_left, isNothing_graft hf, fetch_graft hf,
    placed_map, map_bind]
  congr 1
  funext v
  split <;> simp

private theorem sliceFrom_graft (hf : KeepsTypes f) (low : Option Plan) (scope : Scope α)
    (pos : Nat) (v b : Value α) : (∀ p, low = some p → Carries f p) →
    (match low with
      | some l => do
          let a ← eval (scope.graft f) l
          placed pos ((graft f v).slice a (graft f b))
      | none => do
          let a ← pure (Value.ofInt 0)
          placed pos ((graft f v).slice a (graft f b))) =
      graft f <$> (match low with
        | some l => do
            let a ← eval scope l
            placed pos (v.slice a b)
        | none => do
            let a ← pure (Value.ofInt 0)
            placed pos (v.slice a b)) := by
  intro hlow
  cases low with
  | some l => simp [hlow l rfl scope, slice_graft hf, placed_map]
  | none =>
      have hslice := slice_graft hf v (.ofInt 0) b
      rw [graft_ofInt] at hslice
      simp only [pure_bind, hslice, placed_map]

theorem Carries.slice (hf : KeepsTypes f) (hl : Carries f l) {low high : Option Plan}
    (hlow : ∀ p, low = some p → Carries f p) (hhigh : ∀ p, high = some p → Carries f p) (n : Note) :
    Carries f (.slice n l low high) := by
  intro scope
  have hfrom (v b : Value α) := sliceFrom_graft hf low scope n.pos v b hlow
  simp only [eval, hl scope, bind_map_left, map_bind, length?_graft hf, typeName_graft hf]
  congr 1
  funext v
  cases high with
  | some h =>
      simp only [hhigh h rfl scope, bind_map_left, map_bind]
      congr 1
      funext b
      exact hfrom v b
  | none =>
      cases v.length? with
      | none => simp [placed]
      | some count =>
          have hcount := hfrom v (.ofNat count)
          rw [graft_ofNat] at hcount
          simp only [pure_bind]
          exact hcount

theorem Carries.pointer (n : Note) (target : Bytes) : Carries f (.pointer n target) := by
  intro scope
  cases hi : scope.items with
  | nil => simp [eval, Scope.graft, hi, Value.graft]
  | cons item items =>
      simp only [eval, Scope.graft, hi, List.map_cons]
      split <;> simp [placed_map]

theorem Carries.cond (hf : KeepsTypes f) {c : Plan} (hc : Carries f c) (hl : Carries f l)
    (hr : Carries f r) (n : Note) : Carries f (.cond n c l r) := by
  intro scope
  simp only [eval, hc scope, hl scope, hr scope, bind_map_left, asBool_graft hf, map_bind]
  congr 1
  funext v
  congr 1
  funext b
  split <;> rfl

theorem Carries.binding (hl : Carries f l) (hr : Carries f r) (n : Note) (s : Bytes) :
    Carries f (.binding n s l r) := by
  intro scope
  have hbody (value : Value α) :
      eval { scope.graft f with locals := (s, graft f value) :: (scope.graft f).locals } r =
        graft f <$> eval { scope with locals := (s, value) :: scope.locals } r :=
    hr { scope with locals := (s, value) :: scope.locals }
  simp only [eval, hl scope, bind_map_left, map_bind, hbody]

end Cases

theorem evalItem_graft {p : Option Plan} (hp : ∀ q, p = some q → Carries f q) (scope : Scope α)
    (pos : Nat) : Commutes f (graft f) (evalItem scope pos p) (evalItem (scope.graft f) pos p) := by
  cases p with
  | none => exact fun item i => placed_map (graft f) pos item
  | some p =>
      intro item i
      rw [evalItem, evalItem, at_graft, hp p rfl (scope.at_ item i)]

mutual

theorem eval_graft (hf : KeepsTypes f) (p : Plan) : Carries f p := by
  cases p with
  | nil n | bool n b | int n i | float n x | text n s =>
      intro scope
      simp only [eval, map_pure, Value.graft, graft_ofInt]
  | constants n items =>
      intro scope
      simp [eval, evalList_graft hf items scope, Value.graft, graftItems_eq_map]
  | intSet n members | textSet n members =>
      intro scope
      simp [eval, placed]
  | name n s =>
      intro scope
      simp [eval, lookup_graft]
  | unary n op e =>
      intro scope
      simp [eval, eval_graft hf e scope, applyUnary_graft hf, placed_map]
  | binary n op l r => exact (eval_graft hf l).binary hf (eval_graft hf r) n op
  | chain n e =>
      intro scope
      simp [eval, eval_graft hf e scope, endChain_graft hf]
  | member n e k optional => exact (eval_graft hf e).member hf (eval_graft hf k) n optional
  | slice n e low high =>
      exact (eval_graft hf e).slice hf (evalOption_graft hf low) (evalOption_graft hf high) n
  | call n callee args =>
      intro scope
      simp [eval, evalList_graft hf args scope, eval_graft hf callee scope, applyCall_graft hf,
        placed_map]
  | builtin n fn args =>
      intro scope
      simp [eval, evalList_graft hf args scope, Expr.Function.apply_graft hf, placed_map]
  | iteration n fn c body result =>
      intro scope
      simp only [eval, eval_graft hf c scope, bind_map_left, map_bind, iterated_graft hf, placed_map,
        iterate_graft hf (evalItem_graft (evalOption_graft hf body) scope n.pos)
          (evalItem_graft (evalOption_graft hf result) scope n.pos)]
  | pointer n target => exact Carries.pointer n target
  | cond n c a b => exact (eval_graft hf c).cond hf (eval_graft hf a) (eval_graft hf b) n
  | binding n s v body => exact (eval_graft hf v).binding (eval_graft hf body) n s
  | sequence n es =>
      intro scope
      simp only [eval, evalLast_graft hf es scope]
  | array n es =>
      intro scope
      simp [eval, evalList_graft hf es scope, listOf_graft]
  | record n es =>
      intro scope
      simp [eval, evalEntries_graft hf es scope, keyTexts_graft hf, placed_map, recordOf_graft,
        Value.graft]

theorem evalOption_graft (hf : KeepsTypes f) (p : Option Plan) : ∀ q, p = some q → Carries f q := by
  cases p with
  | none => exact nofun
  | some p =>
      rintro _ ⟨⟩
      exact eval_graft hf p

theorem evalList_graft (hf : KeepsTypes f) (ps : List Plan) (scope : Scope α) :
    evalList (scope.graft f) ps = List.map (graft f) <$> evalList scope ps := by
  cases ps with
  | nil => simp [evalList]
  | cons p ps => simp [evalList, eval_graft hf p scope, evalList_graft hf ps scope]

theorem evalLast_graft (hf : KeepsTypes f) (ps : List Plan) (scope : Scope α) :
    evalLast (scope.graft f) ps = graft f <$> evalLast scope ps := by
  rcases ps with _ | ⟨p, _ | ⟨q, ps⟩⟩
  · simp [evalLast, Value.graft]
  · simp only [evalLast, eval_graft hf p scope]
  · simp [evalLast, eval_graft hf p scope, evalLast_graft hf (q :: ps) scope]

theorem evalEntries_graft (hf : KeepsTypes f) (es : List (Plan × Plan)) (scope : Scope α) :
    evalEntries (scope.graft f) es = List.map (graftEntry f) <$> evalEntries scope es := by
  rcases es with _ | ⟨⟨k, v⟩, es⟩
  · simp [evalEntries]
  · simp [evalEntries, eval_graft hf k scope, eval_graft hf v scope, evalEntries_graft hf es scope,
      graftEntry]

end

end Plan

theorem Expression.evaluate_graft (hf : KeepsTypes f) (e : Expression) (env : Env α) :
    e.evaluate (Value.graftEntries f env) = (e.evaluate env).map (graft f) := by
  simp only [evaluate]
  cases e.prepare with
  | error failure => rfl
  | ok plan =>
      have hrun : ((plan.eval ⟨Value.graftEntries f env, [], []⟩).run.run 0).1 =
          ((plan.eval ⟨env, [], []⟩).run.run 0).1.map (graft f) := by
        have heval := congrFun (Plan.eval_graft hf plan ⟨env, [], []⟩) 0
        rw [Plan.map_apply] at heval
        exact congrArg Prod.fst heval
      simp only [bind, Except.bind, hrun]
      rcases ((plan.eval ⟨env, [], []⟩).run.run 0).1 with (_ | _) | v
      · rfl
      · simp [Except.map, pure, Except.pure, graft]
      · rfl

/-- A language in which evaluation passes things to be rendered on, and reads no more of them than
the names of their types. -/
class LawfulLanguage [Language] : Prop where
  evaluate_graft {α β : Type} {f : Value α → Value β} (hf : KeepsTypes f) (e : Expression)
    (env : Env α) :
    Language.evaluate e (Value.graftEntries f env) = (Language.evaluate e env).map (graft f)

instance : LawfulLanguage where
  evaluate_graft hf e env := by
    simp only [Language.evaluate, e.evaluate_graft hf env]
    cases e.evaluate env <;> rfl

end TagLoom

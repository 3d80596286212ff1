/-!
# Conditions around stateful computations

`Ensures pre x post` says that a computation started in a state that satisfies `pre` ends with a
result and a state that satisfy `post`.  Readers of templates and of expressions and the emission
of code are such computations; what they keep is proved from their parts.
-/

namespace TagLoom

variable {σ α β : Type}

/-- From every state in `pre` a computation ends as `post` says. -/
def Ensures (pre : σ → Prop) (x : StateM σ α) (post : α → σ → Prop) : Prop :=
  ∀ s, pre s → post (x.run s).1 (x.run s).2

namespace Ensures

variable {pre pre' : σ → Prop} {post post' : α → σ → Prop}

theorem pure {a : α} (h : ∀ s, pre s → post a s) : Ensures pre (Pure.pure a : StateM σ α) post :=
  h

theorem bind {x : StateM σ α} {k : α → StateM σ β} {mid : α → σ → Prop} {post : β → σ → Prop}
    (hx : Ensures pre x mid) (hk : ∀ a, Ensures (mid a) (k a) post) :
    Ensures pre (x >>= k) post := by
  intro s hs
  exact hk _ _ (hx s hs)

theorem map {x : StateM σ α} {f : α → β} {post : β → σ → Prop}
    (hx : Ensures pre x fun a s => post (f a) s) : Ensures pre (f <$> x) post := by
  intro s hs
  exact hx s hs

theorem mono {x : StateM σ α} (hx : Ensures pre x post) (hpre : ∀ s, pre' s → pre s)
    (hpost : ∀ a s, post a s → post' a s) : Ensures pre' x post' := by
  intro s hs
  exact hpost _ _ (hx s (hpre s hs))

theorem weaken {x : StateM σ α} (hx : Ensures pre x post) (hpost : ∀ a s, post a s → post' a s) :
    Ensures pre x post' :=
  hx.mono (fun _ h => h) hpost

theorem get_bind {k : σ → StateM σ β} {post : β → σ → Prop}
    (hk : ∀ s, pre s → post ((k s).run s).1 ((k s).run s).2) :
    Ensures pre (get >>= k) post :=
  hk

theorem modify {f : σ → σ} {post : Unit → σ → Prop} (h : ∀ s, pre s → post () (f s)) :
    Ensures pre (modifyGet fun s => (PUnit.unit, f s) : StateM σ PUnit) post :=
  h

theorem foldlM {γ : Type} {f : α → γ → StateM σ α} {I : α → σ → Prop} (l : List γ)
    (hf : ∀ a, ∀ c ∈ l, Ensures (I a) (f a c) I) (a : α) : Ensures (I a) (l.foldlM f a) I := by
  induction l generalizing a with
  | nil => exact pure fun _ hs => hs
  | cons c l ih =>
      rw [List.foldlM_cons]
      exact bind (hf a c (by simp)) fun b => ih (fun a d hd => hf a d (by simp [hd])) b

end Ensures

/-- A computation keeps a condition on its state and gives what `Q` says. -/
abbrev Keeps (I : σ → Prop) (x : StateM σ α) (Q : α → Prop) : Prop :=
  Ensures I x fun a s => I s ∧ Q a

namespace Keeps

variable {I : σ → Prop} {Q : α → Prop} {R : β → Prop}

theorem pure {a : α} (h : Q a) : Keeps I (Pure.pure a : StateM σ α) Q :=
  Ensures.pure fun _ hs => ⟨hs, h⟩

theorem bind {x : StateM σ α} {k : α → StateM σ β} (hx : Keeps I x Q)
    (hk : ∀ a, Q a → Keeps I (k a) R) : Keeps I (x >>= k) R :=
  Ensures.bind hx fun a s hs => hk a hs.2 s hs.1

theorem bind_ensures {x : StateM σ α} {k : α → StateM σ β} {post : β → σ → Prop} (hx : Keeps I x Q)
    (hk : ∀ a, Q a → Ensures I (k a) post) : Ensures I (x >>= k) post :=
  Ensures.bind hx fun a s hs => hk a hs.2 s hs.1

theorem skip {x : StateM σ α} {k : α → StateM σ β} (hx : Keeps I x fun _ => True)
    (hk : ∀ a, Keeps I (k a) R) : Keeps I (x >>= k) R :=
  bind hx fun a _ => hk a

theorem weaken {Q' : α → Prop} {x : StateM σ α} (hx : Keeps I x Q) (h : ∀ a, Q a → Q' a) :
    Keeps I x Q' :=
  Ensures.weaken hx fun a _ ha => ⟨ha.1, h a ha.2⟩

theorem get_bind {k : σ → StateM σ β} (hk : ∀ s, I s → Keeps I (k s) R) :
    Keeps I (get >>= k) R :=
  Ensures.get_bind fun s hs => hk s hs s hs

theorem modify {f : σ → σ} (h : ∀ s, I s → I (f s)) :
    Keeps I (modifyGet fun s => (PUnit.unit, f s) : StateM σ PUnit) fun _ => True :=
  Ensures.modify fun s hs => ⟨h s hs, trivial⟩

theorem set {s : σ} (h : I s) : Keeps I (set s : StateM σ PUnit) fun _ => True :=
  fun _ _ => ⟨h, trivial⟩

theorem ite {c : Bool} {x y : StateM σ α} (hx : Keeps I x Q) (hy : Keeps I y Q) :
    Keeps I (if c then x else y) Q := by
  cases c with
  | true => exact hx
  | false => exact hy

theorem ite_bind {c : Bool} {x : StateM σ α} {k : StateM σ β} {post : β → σ → Prop}
    (hx : Keeps I x fun _ => True) (hk : Ensures I k post) :
    Ensures I (if c then x >>= fun _ => k else k) post := by
  cases c with
  | true => exact hx.bind_ensures fun _ _ => hk
  | false => exact hk

theorem mapM {f : α → StateM σ β} (l : List α) (hf : ∀ a ∈ l, Keeps I (f a) R) :
    Keeps I (l.mapM f) fun bs => ∀ b ∈ bs, R b := by
  induction l with
  | nil => exact pure (by simp)
  | cons a l ih =>
      rw [List.mapM_cons]
      rw [List.forall_mem_cons] at hf
      exact bind hf.1 fun b hb => bind (ih hf.2) fun bs hbs =>
        pure (List.forall_mem_cons.2 ⟨hb, hbs⟩)

theorem foldlM {γ : Type} {f : α → γ → StateM σ α} (l : List γ) {a : α} (ha : Q a)
    (hf : ∀ a, Q a → ∀ c ∈ l, Keeps I (f a c) Q) : Keeps I (l.foldlM f a) Q := by
  intro s hs
  have hfold := Ensures.foldlM (I := fun a s => I s ∧ Q a) l
    (fun a c hc s hs => hf a hs.2 c hc s hs.1) a
  exact hfold s ⟨hs, ha⟩

end Keeps

end TagLoom

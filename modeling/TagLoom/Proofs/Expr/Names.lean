import TagLoom.Expr.Source
import TagLoom.Proofs.Stateful

/-!
# Names of a read expression

Every name in the tree of an expression is the value of a name token of its source.
-/

namespace TagLoom.Expr

/-! ## Names in trees -/

section

variable (Q : Bytes → Prop)

mutual

/-- Every name in an expression is as `Q` says. -/
def Named : Expr → Prop
  | .nil _ | .bool _ _ | .int _ _ | .float _ _ | .text _ _ | .pointer _ _ => True
  | .name _ n => Q n
  | .unary _ _ e | .chain _ e | .predicate _ e => Named e
  | .binary _ _ l r => Named l ∧ Named r
  | .member _ e k _ => Named e ∧ Named k
  | .slice _ e low high => Named e ∧ NamedOpt low ∧ NamedOpt high
  | .call _ callee args => Named callee ∧ NamedList args
  | .builtin _ _ args => NamedList args
  | .cond _ c a b => Named c ∧ Named a ∧ Named b
  | .binding _ _ v body => Named v ∧ Named body
  | .sequence _ es | .array _ es => NamedList es
  | .record _ entries => NamedEntries entries

def NamedOpt : Option Expr → Prop
  | none => True
  | some e => Named e

def NamedList : List Expr → Prop
  | [] => True
  | e :: es => Named e ∧ NamedList es

def NamedEntries : List (Expr × Expr) → Prop
  | [] => True
  | (k, v) :: entries => Named k ∧ Named v ∧ NamedEntries entries

end

end

variable {Q : Bytes → Prop}

theorem namedList_append {es fs : List Expr} (he : NamedList Q es) (hf : NamedList Q fs) :
    NamedList Q (es ++ fs) := by
  induction es with
  | nil => exact hf
  | cons e es ih => exact ⟨he.1, ih he.2⟩

mutual

theorem named_occurrences (bound : List Bytes) (e : Expr) (he : Named Q e) :
    ∀ n ∈ occurrences bound e, Q n ∧ Bytes.startsWith n "$" = false := by
  cases e with
  | name pos n =>
      rw [occurrences]
      split
      · simp
      · rename_i hfree
        intro m hm
        simp only [Bool.or_eq_true, not_or, Bool.not_eq_true] at hfree
        rw [List.mem_singleton.1 hm]
        exact ⟨he, hfree.2⟩
  | unary pos op e => exact named_occurrences bound e he
  | chain pos e => exact named_occurrences bound e he
  | predicate pos e => exact named_occurrences bound e he
  | binary pos op l r =>
      exact List.forall_mem_append.2
        ⟨named_occurrences bound l he.1, named_occurrences bound r he.2⟩
  | member pos e k optional =>
      refine List.forall_mem_append.2 ⟨named_occurrences bound e he.1, ?_⟩
      split
      · simp
      · exact named_occurrences bound k he.2
  | slice pos e low high =>
      exact List.forall_mem_append.2 ⟨List.forall_mem_append.2
        ⟨named_occurrences bound e he.1, named_occurrencesOpt bound low he.2.1⟩,
        named_occurrencesOpt bound high he.2.2⟩
  | call pos callee args =>
      exact List.forall_mem_append.2
        ⟨named_occurrences bound callee he.1, named_occurrencesList bound args he.2⟩
  | builtin pos f args => exact named_occurrencesList bound args he
  | cond pos c a b =>
      exact List.forall_mem_append.2 ⟨List.forall_mem_append.2
        ⟨named_occurrences bound c he.1, named_occurrences bound a he.2.1⟩,
        named_occurrences bound b he.2.2⟩
  | binding pos n v body =>
      exact List.forall_mem_append.2
        ⟨named_occurrences bound v he.1, named_occurrences (n :: bound) body he.2⟩
  | sequence pos es => exact named_occurrencesList bound es he
  | array pos es => exact named_occurrencesList bound es he
  | record pos entries => exact named_occurrencesEntries bound entries he
  | _ => simp [occurrences]

theorem named_occurrencesOpt (bound : List Bytes) (e : Option Expr) (he : NamedOpt Q e) :
    ∀ n ∈ occurrencesOpt bound e, Q n ∧ Bytes.startsWith n "$" = false := by
  cases e with
  | none => simp [occurrencesOpt]
  | some e => exact named_occurrences bound e he

theorem named_occurrencesList (bound : List Bytes) (es : List Expr) (he : NamedList Q es) :
    ∀ n ∈ occurrencesList bound es, Q n ∧ Bytes.startsWith n "$" = false := by
  cases es with
  | nil => simp [occurrencesList]
  | cons e es =>
      exact List.forall_mem_append.2
        ⟨named_occurrences bound e he.1, named_occurrencesList bound es he.2⟩

theorem named_occurrencesEntries (bound : List Bytes) (entries : List (Expr × Expr))
    (he : NamedEntries Q entries) :
    ∀ n ∈ occurrencesEntries bound entries, Q n ∧ Bytes.startsWith n "$" = false := by
  cases entries with
  | nil => simp [occurrencesEntries]
  | cons entry entries =>
      obtain ⟨k, v⟩ := entry
      refine List.forall_mem_append.2 ⟨List.forall_mem_append.2 ⟨?_,
        named_occurrences bound v he.2.1⟩, named_occurrencesEntries bound entries he.2.2⟩
      split
      · simp
      · exact named_occurrences bound k he.1

end

namespace Reading

open Reader

/-! ## What the reader keeps -/

def Spells (Q : Bytes → Prop) (t : Token) : Prop := t.kind = .name → Q t.value

/-- The name tokens still to be read are as `Q` says. -/
structure Ahead (Q : Bytes → Prop) (st : ReadState) : Prop where
  current : Spells Q st.current
  rest : ∀ t ∈ st.rest, Spells Q t

/-- A part of the reading that keeps to the tokens and gives what `P` says. -/
abbrev Reads (Q : Bytes → Prop) {α : Type} (x : Reader α) (P : α → Prop) : Prop :=
  Keeps (Ahead Q) x P

variable {α β : Type}

theorem reads_get : Reads Q get fun _ => True := fun _ hs => ⟨hs, trivial⟩

theorem reads_current : Reads Q current (Spells Q) := fun _ hs => ⟨hs, hs.current⟩

theorem reads_faulty : Reads Q faulty fun _ => True := fun _ hs => ⟨hs, trivial⟩

theorem reads_fail (e : ParseError) : Reads Q (fail e) fun _ => True :=
  Keeps.modify fun _ h => ⟨h.current, h.rest⟩

theorem reads_next : Reads Q next fun _ => True := by
  refine Keeps.modify fun st h => ?_
  split
  · rename_i t rest hrest
    exact ⟨h.rest t (by simp [hrest]), fun u hu => h.rest u (by simp [hrest, hu])⟩
  · split
    · exact ⟨h.current, h.rest⟩
    · exact ⟨h.current, h.rest⟩

theorem reads_isAt (kind : TokenKind) (value : Bytes) : Reads Q (isAt kind value) fun _ => True :=
  fun _ hs => ⟨hs, trivial⟩

theorem reads_atOperator (value : Bytes) : Reads Q (atOperator value) fun _ => True :=
  reads_isAt .operator value

theorem reads_atBracket (value : Bytes) : Reads Q (atBracket value) fun _ => True :=
  reads_isAt .bracket value

theorem reads_failHere : Reads Q failHere fun _ => True :=
  reads_current.bind fun _ _ => reads_fail _

theorem reads_expect (kind : TokenKind) (value : Bytes) :
    Reads Q (expect kind value) fun _ => True :=
  (reads_isAt kind value).skip fun _ => Keeps.ite reads_next reads_failHere

theorem reads_expectOperator (value : Bytes) : Reads Q (expectOperator value) fun _ => True :=
  reads_expect .operator value

theorem reads_expectBracket (value : Bytes) : Reads Q (expectBracket value) fun _ => True :=
  reads_expect .bracket value

theorem reads_expectName : Reads Q expectName fun _ => True :=
  reads_current.bind fun _ _ => Keeps.ite reads_next reads_failHere

theorem Reads.unlessFaulty {a : α} {x : Reader α} {P : α → Prop} (ha : P a) (hx : Reads Q x P) :
    Reads Q (faulty >>= fun b => if b = true then Pure.pure a else x) P :=
  reads_faulty.skip fun _ => Keeps.ite (Keeps.pure ha) hx

theorem reads_node {e : Expr} (he : Named Q e) : Reads Q (node e) (Named Q) := by
  have hcount : Reads Q (modify fun st => { st with nodes := st.nodes + 1 }) fun _ => True :=
    Keeps.modify fun st h => ⟨h.current, h.rest⟩
  refine hcount.skip fun _ => ?_
  refine Ensures.get_bind fun st hst => ?_
  split
  · exact (reads_fail _).skip (fun _ => Keeps.pure he) st hst
  · exact Keeps.pure he st hst

theorem reads_built {e : Expr} {a : α} {k : Expr → Reader α} {P : α → Prop} (he : Named Q e)
    (ha : P a) (hk : ∀ e, Named Q e → Reads Q (k e) P) :
    Reads Q (node e >>= fun e => faulty >>= fun b => if b = true then Pure.pure a else k e) P :=
  (reads_node he).bind fun e he => Reads.unlessFaulty ha (hk e he)

/-! ## Single functions -/

/-- What every function of the reader gives at some depth. -/
structure Specs (Q : Bytes → Prop) (fuel : Nat) : Prop where
  sequence : Reads Q (sequence fuel) (Named Q)
  moreSteps : Reads Q (moreSteps fuel) (NamedList Q)
  binding : Reads Q (binding fuel) (Named Q)
  choice : Reads Q (choice fuel) (Named Q)
  expression : ∀ least, Reads Q (expression fuel least) (Named Q)
  operators : ∀ least left before, Named Q left → Reads Q (operators fuel least left before) (Named Q)
  comparisons : ∀ left op o p sofar, Named Q left → NamedOpt Q sofar →
    Reads Q (comparisons fuel left op o p sofar) (Named Q)
  conditional : ∀ e, Named Q e → Reads Q (conditional fuel e) (Named Q)
  primary : Reads Q (primary fuel) (Named Q)
  operand : ∀ t, Spells Q t → Reads Q (operand fuel t) (Named Q)
  items : ∀ first, Reads Q (items fuel first) (NamedList Q)
  entries : ∀ first, Reads Q (entries fuel first) fun es => ∀ l, es = some l → NamedEntries Q l
  entryValue : ∀ key, Named Q key →
    Reads Q (entryValue fuel key) fun es => ∀ l, es = some l → NamedEntries Q l
  arguments : ∀ first, Reads Q (arguments fuel first) (NamedList Q)
  callTo : ∀ word given, NamedList Q given →
    Ensures (fun st => Ahead Q st ∧ (st.fault = none → Q word.value)) (callTo fuel word given)
      fun e st => Ahead Q st ∧ Named Q e
  sortedArguments : ∀ sorts count first,
    Reads Q (sortedArguments fuel sorts count first) (NamedList Q)
  predicate : Reads Q (predicate fuel) (Named Q)
  members : ∀ e, Named Q e → Reads Q (members fuel e) (Named Q)
  index : ∀ e t optional, Named Q e → Reads Q (index fuel e t optional) (Named Q)

variable {fuel : Nat}

private theorem named_absent : Named Q absent := trivial

theorem reads_sequence (h : Specs Q fuel) : Reads Q (sequence (fuel + 1)) (Named Q) := by
  unfold sequence
  refine (h.expression 0).bind fun first hfirst => h.moreSteps.bind fun more hmore => ?_
  refine Reads.unlessFaulty named_absent ?_
  split
  · exact Keeps.pure hfirst
  · exact reads_node ⟨hfirst, hmore⟩

theorem reads_moreSteps (h : Specs Q fuel) : Reads Q (moreSteps (fuel + 1)) (NamedList Q) := by
  unfold moreSteps
  refine (reads_atOperator _).skip fun _ => reads_faulty.skip fun _ => Keeps.ite ?_ (Keeps.pure trivial)
  refine reads_next.skip fun _ => reads_current.bind fun _ _ => Keeps.ite (Keeps.pure trivial) ?_
  exact (h.expression 0).bind fun e he => h.moreSteps.bind fun es hes => Keeps.pure ⟨he, hes⟩

theorem reads_binding (h : Specs Q fuel) : Reads Q (binding (fuel + 1)) (Named Q) := by
  unfold binding
  refine (reads_expectOperator _).skip fun _ => reads_current.bind fun name _ => ?_
  refine reads_expectName.skip fun _ => (reads_expectOperator _).skip fun _ => ?_
  refine (h.expression 0).bind fun value hvalue => (reads_expectOperator _).skip fun _ => ?_
  exact h.sequence.bind fun body hbody => reads_node ⟨hvalue, hbody⟩

theorem reads_choice (h : Specs Q fuel) : Reads Q (choice (fuel + 1)) (Named Q) := by
  unfold choice
  refine reads_next.skip fun _ => (h.expression 0).bind fun test htest => ?_
  refine (reads_expectBracket _).skip fun _ => h.sequence.bind fun yes hyes => ?_
  refine (reads_expectBracket _).skip fun _ => (reads_expectOperator _).skip fun _ => ?_
  refine (reads_atOperator _).skip fun _ => Keeps.ite ?_ ?_
  · exact h.choice.bind fun no hno => Keeps.pure ⟨htest, hyes, hno⟩
  · refine (reads_expectBracket _).skip fun _ => h.sequence.bind fun no hno => ?_
    exact (reads_expectBracket _).skip fun _ => Keeps.pure ⟨htest, hyes, hno⟩

theorem reads_expression (h : Specs Q fuel) (least : Nat) :
    Reads Q (expression (fuel + 1) least) (Named Q) := by
  unfold expression
  refine Reads.unlessFaulty named_absent ?_
  refine (reads_atOperator _).skip fun _ => Keeps.ite h.binding ?_
  refine (reads_atOperator _).skip fun _ => Keeps.ite h.choice ?_
  refine h.primary.bind fun left hleft => (h.operators least left [] hleft).bind fun e he => ?_
  exact Keeps.ite (h.conditional e he) (Keeps.pure he)

theorem kind_of_expectName {st : ReadState} (h : (expectName.run st).2.fault = none) :
    st.current.kind = .name := by
  have hrun : expectName.run st =
      (if st.current.kind == .name then next else failHere : Reader Unit).run st := rfl
  rw [hrun] at h
  split at h
  · rename_i hkind
    exact beq_iff_eq.1 hkind
  · have hfault : (failHere.run st).2.fault = (st.fault <|> some (.unexpected st.current)) := rfl
    rw [hfault] at h
    cases hf : st.fault <;> simp [hf] at h

theorem reads_calledName (h : Specs Q fuel) {k : Token → Expr → Reader α} {P : α → Prop}
    {given : List Expr} (hgiven : NamedList Q given)
    (hk : ∀ word e, Named Q e → Reads Q (k word e) P) :
    Reads Q (current >>= fun word => expectName >>= fun _ => callTo fuel word given >>= k word) P := by
  intro st hst
  have hword : Ensures (fun s => s = st) expectName fun _ s =>
      Ahead Q s ∧ (s.fault = none → Q st.current.value) := by
    intro s hs
    rw [hs]
    exact ⟨(reads_expectName _ hst).1, fun hfault => hst.current (kind_of_expectName hfault)⟩
  have hcall : Ensures (fun s => Ahead Q s ∧ (s.fault = none → Q st.current.value))
      (callTo fuel st.current given >>= k st.current) fun a s => Ahead Q s ∧ P a :=
    Ensures.bind (h.callTo st.current given hgiven) fun e s hs => hk st.current e hs.2 s hs.1
  exact Ensures.bind hword (fun _ => hcall) st rfl

theorem reads_operators (h : Specs Q fuel) (least : Nat) {left : Expr} (before : Bytes)
    (hleft : Named Q left) : Reads Q (operators (fuel + 1) least left before) (Named Q) := by
  unfold operators
  refine reads_current.bind fun op hop => reads_faulty.skip fun _ => Keeps.ite (Keeps.pure hleft) ?_
  refine Keeps.ite ?_ ?_
  · refine reads_next.skip fun _ => reads_current.bind fun word hword => Keeps.ite ?_ ?_
    · split
      · refine reads_next.skip fun _ => Keeps.ite ((reads_fail _).skip fun _ => Keeps.pure hleft) ?_
        refine (h.expression _).bind fun right hright => ?_
        split
        · refine (reads_node (show Named Q (.binary _ _ _ _) from ⟨hleft, hright⟩)).bind
            fun inner hinner => reads_built hinner named_absent fun e he => ?_
          exact h.operators least e word.value he
        · exact Keeps.pure hleft
      · refine (Keeps.modify fun st hst => ⟨hop, ?_⟩).skip fun _ => Keeps.pure hleft
        exact List.forall_mem_cons.2 ⟨hword, hst.rest⟩
    · exact reads_failHere.skip fun _ => Keeps.pure hleft
  · split
    · exact Keeps.pure hleft
    · split
      · exact Keeps.pure hleft
      · refine reads_next.skip fun _ => Keeps.ite ?_ ?_
        · exact reads_calledName h ⟨hleft, trivial⟩ fun word e he => h.operators least e op.value he
        · refine Keeps.ite ((reads_fail _).skip fun _ => Keeps.pure hleft) ?_
          split
          · exact Keeps.pure hleft
          · refine Keeps.ite ?_ ?_
            · exact (h.comparisons left op _ _ none hleft trivial).bind fun e he =>
                h.operators least e op.value he
            · refine (h.expression _).bind fun right hright => ?_
              exact reads_built ⟨hleft, hright⟩ named_absent fun e he =>
                h.operators least e op.value he

theorem reads_comparisons (h : Specs Q fuel) {left : Expr} (op : Token) (o : BinaryOp) (p : Nat)
    {sofar : Option Expr} (hleft : Named Q left) (hsofar : NamedOpt Q sofar) :
    Reads Q (comparisons (fuel + 1) left op o p sofar) (Named Q) := by
  unfold comparisons
  refine (h.expression _).bind fun right hright => ?_
  refine (reads_node (show Named Q (.binary _ _ _ _) from ⟨hleft, hright⟩)).bind fun pair hpair => ?_
  extract_lets jp
  have hjp (whole : Expr) (hwhole : Named Q whole) : Reads Q (jp whole) (Named Q) := by
    refine Reads.unlessFaulty named_absent ?_
    refine reads_current.bind fun following _ => ?_
    split
    · refine Keeps.ite (reads_next.skip fun _ => ?_) (Keeps.pure hwhole)
      exact h.comparisons right following _ p (some whole) hright hwhole
    · exact Keeps.pure hwhole
  split
  · exact hjp pair hpair
  · exact (reads_node (show Named Q (.binary _ _ _ _) from ⟨hsofar, hpair⟩)).bind hjp

theorem reads_conditional (h : Specs Q fuel) {e : Expr} (he : Named Q e) :
    Reads Q (conditional (fuel + 1) e) (Named Q) := by
  unfold conditional
  refine (reads_atOperator _).skip fun _ => reads_faulty.skip fun _ => Keeps.ite ?_ (Keeps.pure he)
  refine reads_next.skip fun _ => (reads_atOperator _).skip fun _ => Keeps.ite ?_ ?_
  · refine reads_next.skip fun _ => (h.expression 0).bind fun no hno => ?_
    refine reads_current.bind fun _ _ => reads_built ⟨he, he, hno⟩ named_absent fun c hc => ?_
    exact h.conditional c hc
  · refine (h.expression 0).bind fun yes hyes => (reads_expectOperator _).skip fun _ => ?_
    refine (h.expression 0).bind fun no hno => reads_current.bind fun _ _ => ?_
    exact reads_built ⟨he, hyes, hno⟩ named_absent fun c hc => h.conditional c hc

theorem reads_primary (h : Specs Q fuel) : Reads Q (primary (fuel + 1)) (Named Q) := by
  unfold primary
  refine reads_current.bind fun t ht => ?_
  have hpointer (start : Nat) (word : Bytes) :
      Reads Q (node (.pointer start word) >>= fun e => faulty >>= fun b =>
        if b = true then Pure.pure absent else members fuel e) (Named Q) :=
    reads_built trivial named_absent h.members
  split
  · refine reads_next.skip fun _ => (h.expression _).bind fun e he => ?_
    exact reads_built he named_absent h.members
  · refine Keeps.ite ?_ (reads_get.skip fun _ => Keeps.ite ?_ ?_)
    · refine reads_next.skip fun _ => h.sequence.bind fun e he => ?_
      exact (reads_expectBracket _).skip fun _ => h.members e he
    · refine reads_next.skip fun _ => reads_current.bind fun word _ => Keeps.ite ?_ (hpointer _ _)
      exact reads_next.skip fun _ => hpointer _ _
    · refine reads_get.skip fun _ => Keeps.ite (hpointer _ _) (Keeps.ite ?_ (h.operand t ht))
      refine reads_next.skip fun _ => ?_
      exact reads_calledName h trivial fun word e he => h.members e he

theorem named_numberNode {t : Token} {e : Expr} (h : numberNode t = .ok e) : Named Q e := by
  unfold numberNode at h
  extract_lets value lower int at h
  have hint {kind : Bytes} {r : Except Decimal.ReadError Int} (h : int kind r = .ok e) :
      Named Q e := by
    simp only [int] at h
    split at h
    · cases h
      trivial
    · cases h
  split at h
  · exact hint h
  · split at h
    · split at h
      · cases h
        trivial
      · cases h
    · split at h
      · exact hint h
      · split at h
        · exact hint h
        · exact hint h

theorem reads_operand (h : Specs Q fuel) {t : Token} (ht : Spells Q t) :
    Reads Q (operand (fuel + 1) t) (Named Q) := by
  unfold operand
  split
  · rename_i hkind
    refine reads_next.skip fun _ => Keeps.ite (reads_node trivial) ?_
    refine Keeps.ite (reads_node trivial) (Keeps.ite (reads_node trivial) ?_)
    refine (reads_atBracket _).skip fun _ => Keeps.ite ?_ ?_
    · refine Ensures.bind ((h.callTo t [] trivial).mono (fun st hst => ⟨hst, fun _ => ht hkind⟩)
        fun _ _ h => h) fun e st hst => h.members e hst.2 st hst.1
    · exact reads_built (ht hkind) named_absent h.members
  · refine reads_next.skip fun _ => ?_
    split
    · rename_i e he
      exact reads_node (named_numberNode he)
    · exact (reads_fail _).skip fun _ => Keeps.pure named_absent
  · exact reads_next.skip fun _ => reads_built trivial named_absent h.members
  · refine Keeps.ite ?_ (Keeps.ite ?_ (reads_failHere.skip fun _ => Keeps.pure named_absent))
    · refine reads_next.skip fun _ => (h.items true).bind fun items hitems => ?_
      exact (reads_expectBracket _).skip fun _ => reads_built hitems named_absent h.members
    · refine reads_next.skip fun _ => (h.entries true).bind fun es hes => ?_
      split
      · exact Keeps.pure named_absent
      · rename_i es
        exact (reads_expectBracket _).skip fun _ => reads_built (hes es rfl) named_absent h.members

theorem reads_items (h : Specs Q fuel) (first : Bool) :
    Reads Q (items (fuel + 1) first) (NamedList Q) := by
  unfold items
  have hitem : Reads Q (do
      let e ← expression fuel 0
      return e :: (← items fuel false)) (NamedList Q) :=
    (h.expression 0).bind fun e he => (h.items false).bind fun es hes => Keeps.pure ⟨he, hes⟩
  refine (reads_atBracket _).skip fun _ => reads_faulty.skip fun _ => Keeps.ite (Keeps.pure trivial) ?_
  refine Keeps.ite ((reads_expectOperator _).skip fun _ => ?_) hitem
  exact (reads_atBracket _).skip fun _ => Keeps.ite (Keeps.pure trivial) hitem

theorem reads_arguments (h : Specs Q fuel) (first : Bool) :
    Reads Q (arguments (fuel + 1) first) (NamedList Q) := by
  unfold arguments
  have hargument : Reads Q (do
      let e ← expression fuel 0
      return e :: (← arguments fuel false)) (NamedList Q) :=
    (h.expression 0).bind fun e he => (h.arguments false).bind fun es hes => Keeps.pure ⟨he, hes⟩
  refine (reads_atBracket _).skip fun _ => reads_faulty.skip fun _ => Keeps.ite (Keeps.pure trivial) ?_
  refine Keeps.ite ((reads_expectOperator _).skip fun _ => ?_) hargument
  exact (reads_atBracket _).skip fun _ => Keeps.ite (Keeps.pure trivial) hargument

theorem reads_entries (h : Specs Q fuel) (first : Bool) :
    Reads Q (entries (fuel + 1) first) fun es => ∀ l, es = some l → NamedEntries Q l := by
  unfold entries
  have hempty : ∀ l, some [] = some l → NamedEntries Q l := by
    intro l hl
    cases hl
    trivial
  refine (reads_atBracket _).skip fun _ => reads_faulty.skip fun _ => Keeps.ite (Keeps.pure hempty) ?_
  extract_lets jp
  have hjp (u : Unit) : Reads Q (jp u) fun es => ∀ l, es = some l → NamedEntries Q l := by
    refine reads_current.bind fun t _ => Keeps.ite ?_ (Keeps.ite ?_ ?_)
    · exact reads_built trivial (by simp) fun key hkey => reads_next.skip fun _ =>
        h.entryValue key hkey
    · exact (h.expression 0).bind fun key hkey => h.entryValue key hkey
    · exact (reads_fail _).skip fun _ => h.entryValue absent named_absent
  refine Keeps.ite ((reads_expectOperator _).skip fun _ => ?_) (hjp ())
  refine (reads_atBracket _).skip fun _ => Keeps.ite (Keeps.pure hempty) ?_
  exact (reads_atOperator _).skip fun _ => Keeps.ite (reads_failHere.skip hjp) (hjp ())

theorem reads_entryValue (h : Specs Q fuel) {key : Expr} (hkey : Named Q key) :
    Reads Q (entryValue (fuel + 1) key) fun es => ∀ l, es = some l → NamedEntries Q l := by
  unfold entryValue
  refine (reads_expectOperator _).skip fun _ => (h.expression 0).bind fun value hvalue => ?_
  refine (reads_node hvalue).bind fun _ _ => Reads.unlessFaulty (by simp) ?_
  refine (h.entries false).bind fun rest hrest => ?_
  split
  · exact Keeps.pure (by simp)
  · rename_i es
    refine Keeps.pure fun l hl => ?_
    cases hl
    exact ⟨hkey, hvalue, hrest es rfl⟩

/-- The node of a name that was looked for and not found is given up. -/
private theorem reads_calledNode {word : Token} {k : Expr → Reader Expr}
    (hk : ∀ e, Named Q e → Reads Q (k e) (Named Q)) :
    Ensures (fun st => Ahead Q st ∧ (st.fault = none → Q word.value))
      (node (.name word.start word.value) >>= fun e => faulty >>= fun b =>
        if b = true then Pure.pure absent else k e) fun e st => Ahead Q st ∧ Named Q e := by
  rintro st ⟨hst, hword⟩
  by_cases hfault : st.fault = none
  · have hnamed : Named Q (.name word.start word.value) := hword hfault
    exact reads_built hnamed named_absent hk st hst
  · have hfail (e : ParseError) : Ensures (fun st => Ahead Q st ∧ st.fault ≠ none) (fail e)
        fun _ st => Ahead Q st ∧ st.fault ≠ none := by
      rintro st ⟨hst, hfault⟩
      refine ⟨⟨hst.current, hst.rest⟩, fun hnone => hfault ?_⟩
      have hnone : (st.fault <|> some e) = none := hnone
      cases hf : st.fault with
      | none => rfl
      | some f => simp [hf] at hnone
    have hnode (e : Expr) : Ensures (fun st => Ahead Q st ∧ st.fault ≠ none) (node e)
        fun _ st => Ahead Q st ∧ st.fault ≠ none := by
      have hcount : Ensures (fun st => Ahead Q st ∧ st.fault ≠ none)
          (modify fun st => { st with nodes := st.nodes + 1 } : Reader Unit)
          fun _ st => Ahead Q st ∧ st.fault ≠ none :=
        Ensures.modify fun st hst => ⟨⟨hst.1.current, hst.1.rest⟩, hst.2⟩
      refine Ensures.bind hcount fun _ => ?_
      refine Ensures.get_bind fun st hst => ?_
      split
      · exact hfail _ st hst
      · exact hst
    have habsent (e : Expr) : Ensures (fun st => Ahead Q st ∧ st.fault ≠ none)
        (faulty >>= fun b => if b = true then Pure.pure absent else k e)
        fun e st => Ahead Q st ∧ Named Q e := by
      rintro st ⟨hst, hfault⟩
      change Ahead Q ((if st.fault.isSome = true then Pure.pure absent else k e).run st).2 ∧
        Named Q ((if st.fault.isSome = true then Pure.pure absent else k e).run st).1
      rw [if_pos (Option.isSome_iff_ne_none.2 hfault)]
      exact ⟨hst, trivial⟩
    exact Ensures.bind (hnode _) habsent st ⟨hst, hfault⟩

private theorem Reads.called {word : Token} {x : Reader α} {P : α → Prop} (hx : Reads Q x P) :
    Ensures (fun st => Ahead Q st ∧ (st.fault = none → Q word.value)) x
      fun a st => Ahead Q st ∧ P a :=
  hx.mono (fun _ hst => hst.1) fun _ _ h => h

theorem reads_callTo (h : Specs Q fuel) (word : Token) {given : List Expr}
    (hgiven : NamedList Q given) :
    Ensures (fun st => Ahead Q st ∧ (st.fault = none → Q word.value)) (callTo (fuel + 1) word given)
      fun e st => Ahead Q st ∧ Named Q e := by
  have hbuiltin {args : List Expr} (hargs : NamedList Q args) :
      Reads Q (node (.builtin word.start word.value (given ++ args)) >>= fun e => faulty >>= fun b =>
        if b = true then Pure.pure absent else Pure.pure e) (Named Q) :=
    reads_built (namedList_append hgiven hargs) named_absent fun e he => Keeps.pure he
  unfold callTo
  split
  · refine Reads.called ?_
    refine (reads_expectBracket _).skip fun _ => ?_
    refine (h.sortedArguments _ _ true).bind fun args hargs => (reads_atOperator _).skip fun _ => ?_
    refine Keeps.ite (reads_next.skip fun _ => ?_) ?_
    · exact (reads_expectBracket _).skip fun _ => hbuiltin hargs
    · exact (reads_expectBracket _).skip fun _ => hbuiltin hargs
  · split
    · refine Reads.called ?_
      refine (reads_expectBracket _).skip fun _ => (h.arguments true).bind fun args hargs => ?_
      exact (reads_expectBracket _).skip fun _ => hbuiltin hargs
    · refine reads_calledNode fun callee hcallee => ?_
      refine (reads_expectBracket _).skip fun _ => (h.arguments true).bind fun args hargs => ?_
      exact (reads_expectBracket _).skip fun _ =>
        reads_node ⟨hcallee, namedList_append hgiven hargs⟩

theorem reads_sortedArguments (h : Specs Q fuel) (sorts : List ArgSort) (count : Nat) (first : Bool) :
    Reads Q (sortedArguments (fuel + 1) sorts count first) (NamedList Q) := by
  cases sorts with
  | nil =>
      unfold sortedArguments
      exact Keeps.pure trivial
  | cons sort sorts =>
      unfold sortedArguments
      refine (reads_atBracket _).skip fun _ => Keeps.ite (Keeps.pure trivial) ?_
      extract_lets more others separated
      have hmore (e : Expr) (he : Named Q e) : Reads Q (more e) (NamedList Q) :=
        (h.sortedArguments sorts count false).bind fun es hes => Keeps.pure ⟨he, hes⟩
      have hothers (u : Unit) : Reads Q (others u) (NamedList Q) :=
        Keeps.ite (h.predicate.bind hmore) ((h.expression 0).bind hmore)
      have hseparated (u : Unit) : Reads Q (separated u) (NamedList Q) :=
        Keeps.ite ((reads_expectOperator _).skip hothers) (hothers ())
      exact Keeps.ite ((reads_fail _).skip hseparated) (hseparated ())

theorem reads_predicate (h : Specs Q fuel) : Reads Q (predicate (fuel + 1)) (Named Q) := by
  have hdepth (d : Nat → Nat) :
      Reads Q (modify fun st => { st with depth := d st.depth }) fun _ => True :=
    Keeps.modify fun st hst => ⟨hst.current, hst.rest⟩
  unfold predicate
  refine reads_current.bind fun t _ => (reads_atBracket _).skip fun braced => ?_
  extract_lets closed opened
  have hclosed (body : Expr) (hbody : Named Q body) : Reads Q (closed body) (Named Q) := by
    refine (reads_atOperator _).skip fun _ => ?_
    extract_lets done ended
    have hended (u : Unit) : Reads Q (ended u) (Named Q) := by
      refine (hdepth (· - 1)).skip fun _ => Keeps.ite ((reads_expectBracket _).skip fun _ => ?_) ?_
      · exact reads_node hbody
      · exact reads_node hbody
    exact Keeps.ite ((reads_fail _).skip hended) (hended ())
  have hopened (u : Unit) : Reads Q (opened u) (Named Q) :=
    (hdepth (· + 1)).skip fun _ =>
      Keeps.ite (h.sequence.bind hclosed) ((h.expression 0).bind hclosed)
  exact Keeps.ite (reads_next.skip hopened) (hopened ())

theorem reads_members (h : Specs Q fuel) {e : Expr} (he : Named Q e) :
    Reads Q (members (fuel + 1) e) (Named Q) := by
  unfold members
  refine reads_current.bind fun t _ => reads_faulty.skip fun _ => Keeps.ite (Keeps.pure he) ?_
  refine Keeps.ite ?_ (Keeps.ite ?_ (Keeps.pure he))
  · refine reads_next.skip fun _ => reads_current.bind fun property _ => Keeps.ite ?_ ?_
    · exact (h.index e property true he).bind fun e he => h.members e he
    · refine reads_next.skip fun _ => ?_
      extract_lets keyed
      have hkeyed (u : Unit) : Reads Q (keyed u) (Named Q) := by
        refine reads_built trivial named_absent fun key hkey => ?_
        split
        rename_i object chained hobject
        have hnamed : Named Q object := by
          split at hobject
          · cases hobject
            exact he
          · cases hobject
            exact he
        refine reads_built ⟨hnamed, hkey⟩ named_absent fun m hm => (reads_atBracket _).skip fun _ => ?_
        extract_lets called
        have hcalled (m : Expr) (hm : Named Q m) : Reads Q (called m) (Named Q) := by
          refine Reads.unlessFaulty named_absent (Keeps.ite ?_ (h.members m hm))
          exact reads_built hm named_absent h.members
        refine Keeps.ite ((reads_expectBracket _).skip fun _ => ?_) (hcalled m hm)
        refine (h.arguments true).bind fun args hargs => (reads_expectBracket _).skip fun _ => ?_
        exact (reads_node (show Named Q (.call _ _ _) from ⟨hm, hargs⟩)).bind hcalled
      exact Keeps.ite ((reads_fail _).skip hkeyed) (hkeyed ())
  · exact (h.index e t false he).bind fun e he => h.members e he

theorem reads_index (h : Specs Q fuel) {e : Expr} (t : Token) (optional : Bool) (he : Named Q e) :
    Reads Q (index (fuel + 1) e t optional) (Named Q) := by
  have hslice {low high : Option Expr} (hlow : NamedOpt Q low) (hhigh : NamedOpt Q high) :
      Reads Q (node (.slice t.start e low high) >>= fun s => faulty >>= fun b =>
        if b = true then Pure.pure absent else expectBracket "]" >>= fun _ => Pure.pure s)
        (Named Q) :=
    reads_built ⟨he, hlow, hhigh⟩ named_absent fun s hs =>
      (reads_expectBracket _).skip fun _ => Keeps.pure hs
  unfold index
  refine reads_next.skip fun _ => (reads_atOperator _).skip fun _ => Keeps.ite ?_ ?_
  · refine reads_next.skip fun _ => (reads_atBracket _).skip fun _ => Keeps.ite ?_ ?_
    · exact hslice trivial trivial
    · exact (h.expression 0).bind fun high hhigh => hslice trivial hhigh
  · refine (h.expression 0).bind fun low hlow => (reads_atOperator _).skip fun _ => Keeps.ite ?_ ?_
    · refine reads_next.skip fun _ => (reads_atBracket _).skip fun _ => Keeps.ite ?_ ?_
      · exact hslice hlow trivial
      · exact (h.expression 0).bind fun high hhigh => hslice hlow hhigh
    · refine reads_built ⟨he, hlow⟩ named_absent fun m hm => ?_
      have hclosed (m : Expr) (hm : Named Q m) : Reads Q (faulty >>= fun b =>
          if b = true then Pure.pure absent else expectBracket "]" >>= fun _ => Pure.pure m)
          (Named Q) :=
        Reads.unlessFaulty named_absent ((reads_expectBracket _).skip fun _ => Keeps.pure hm)
      exact Keeps.ite ((reads_node (show Named Q (.chain _ _) from hm)).bind hclosed) (hclosed m hm)

/-! ## The whole source -/

private theorem specs_zero : Specs Q 0 where
  sequence := by
    unfold sequence
    exact Keeps.pure trivial
  moreSteps := by
    unfold moreSteps
    exact Keeps.pure trivial
  binding := by
    unfold binding
    exact Keeps.pure trivial
  choice := by
    unfold choice
    exact Keeps.pure trivial
  expression _ := by
    unfold expression
    exact Keeps.pure trivial
  operators _ _ _ h := by
    unfold operators
    exact Keeps.pure h
  comparisons _ _ _ _ _ h _ := by
    unfold comparisons
    exact Keeps.pure h
  conditional _ h := by
    unfold conditional
    exact Keeps.pure h
  primary := by
    unfold primary
    exact Keeps.pure trivial
  operand _ _ := by
    unfold operand
    exact Keeps.pure trivial
  items _ := by
    unfold items
    exact Keeps.pure trivial
  entries _ := by
    unfold entries
    exact Keeps.pure fun l hl => by
      cases hl
      trivial
  entryValue _ _ := by
    unfold entryValue
    exact Keeps.pure fun l hl => by
      cases hl
      trivial
  arguments _ := by
    unfold arguments
    exact Keeps.pure trivial
  callTo _ _ _ := by
    unfold callTo
    exact fun _ hst => ⟨hst.1, trivial⟩
  sortedArguments _ _ _ := by
    unfold sortedArguments
    exact Keeps.pure trivial
  predicate := by
    unfold predicate
    exact Keeps.pure trivial
  members _ h := by
    unfold members
    exact Keeps.pure h
  index _ _ _ h := by
    unfold index
    exact Keeps.pure h

theorem specs (fuel : Nat) : Specs Q fuel := by
  induction fuel with
  | zero => exact specs_zero
  | succ fuel h =>
      exact {
        sequence := reads_sequence h
        moreSteps := reads_moreSteps h
        binding := reads_binding h
        choice := reads_choice h
        expression := reads_expression h
        operators := fun least _ before hleft => reads_operators h least before hleft
        comparisons := fun _ op o p _ hleft hsofar => reads_comparisons h op o p hleft hsofar
        conditional := fun _ he => reads_conditional h he
        primary := reads_primary h
        operand := fun _ ht => reads_operand h ht
        items := reads_items h
        entries := reads_entries h
        entryValue := fun _ hkey => reads_entryValue h hkey
        arguments := reads_arguments h
        callTo := fun word _ hgiven => reads_callTo h word hgiven
        sortedArguments := reads_sortedArguments h
        predicate := reads_predicate h
        members := fun _ he => reads_members h he
        index := fun _ t optional he => reads_index h t optional he }

end Reading

theorem named_of_parse {source : Bytes} {e : Expr} (h : parse source = .ok e)
    (hlex : ∀ t ∈ (lex source).1, t.kind = .name → Q t.value) : Named Q e := by
  have hread (fuel : Nat) : Reading.Reads Q (do
      Reading.Reader.next
      let e ← Reading.sequence fuel
      if (← Reading.Reader.current).kind != .eof then Reading.Reader.failHere
      return e) (Named Q) := by
    refine Reading.reads_next.skip fun _ => (Reading.specs fuel).sequence.bind fun e he => ?_
    refine Reading.reads_current.bind fun t _ => Keeps.ite ?_ (Keeps.pure he)
    exact Reading.reads_failHere.skip fun _ => Keeps.pure he
  unfold parse Reading.readAll at h
  rcases hl : lex source with ⟨tokens, failure⟩
  rw [hl] at h hlex
  have hstart : Reading.Ahead Q ⟨⟨.eof, [], 0⟩, tokens, failure, none, 0, 0⟩ := by
    refine ⟨fun hkind => ?_, hlex⟩
    simp at hkind
  have hend := (hread (24 * (tokens.length + 4)) _ hstart).2
  simp only at h
  split at h
  rename_i r st hrun
  split at h
  · cases h
  · cases h
    rw [hrun] at hend
    exact hend

end TagLoom.Expr

import TagLoom.Proofs.Inference.Soundness

/-!
# The names of a signature

The parameters of a tag are its declarations and then the names that occur free in its body, in the
order in which they are read first.
-/

namespace TagLoom

namespace Node

inductive ReadsAt : Node → Pos → Expression → Prop where
  | shown {p e esc} : ReadsAt (.interpolation p e esc) p e
  | test {p e body other} : ReadsAt (.cond p e body other) p e
  | collection {p e item index body} : ReadsAt (.loop p e item index body) p e
  | part {p name args q a parts r e} (h : .text q a parts ∈ args)
      (he : .interpolation r e ∈ parts) : ReadsAt (.invocation p name args) r e
  | argument {p name args q a e} (h : .expr q a e ∈ args) : ReadsAt (.invocation p name args) q e

end Node

open Node (Inside ReadsAt)

/-- The names of an expression that are not among those in scope, in their order. -/
def Expression.freeIn (scope : List Bytes) (e : Expression) : List Bytes :=
  e.names.filter (!scope.contains ·)

theorem Expression.mem_freeIn {scope : List Bytes} {e : Expression} {n : Bytes} :
    n ∈ e.freeIn scope ↔ n ∈ e.names ∧ n ∉ scope := by
  simp [freeIn]

/-- The expression that a tag reads at a position has a name as the `i`-th of those that no loop
around it binds. -/
def Definition.ReadsFree (d : Definition) (p : Pos) (i : Nat) (n : Bytes) : Prop :=
  ∃ scope m e, Inside [] d.body scope m ∧ m.ReadsAt p e ∧ (e.freeIn scope)[i]? = some n

/-- A name occurs free in a tag at a place that comes before all places where another one does. -/
def Definition.FirstReadBefore (d : Definition) (m n : Bytes) : Prop :=
  ∃ p i, d.ReadsFree p i m ∧ ∀ q j, d.ReadsFree q j n → p.before q = true ∨ p = q ∧ i < j

namespace Inference

variable {scope : List Bytes} {ns body : List Node} {args : List Arg}

/-! ## Where reads come from -/

/-- A read is of an expression of a node that stands among some nodes or inside them. -/
def Read.ComesFrom (r : Read) (scope : List Bytes) (ns : List Node) : Prop :=
  ∃ inner n e mode, Inside scope ns inner n ∧ n.ReadsAt r.pos e ∧ r = readOf inner e r.pos mode

theorem Read.ComesFrom.mono {r : Read} {ns' : List Node} (h : r.ComesFrom scope ns)
    (hsub : ∀ n ∈ ns, n ∈ ns') : r.ComesFrom scope ns' := by
  obtain ⟨inner, n, e, mode, hinside, hreads⟩ := h
  exact ⟨inner, n, e, mode, hinside.mono hsub, hreads⟩

theorem comesFrom_attrReads (pos : Pos) (name : Bytes) {r : Read} (h : r ∈ attrReads scope args) :
    r.ComesFrom scope [.invocation pos name args] := by
  have hsource : ∃ e mode, (Node.invocation pos name args).ReadsAt r.pos e ∧
      r = readOf scope e r.pos mode := by
    induction args with
    | nil => cases h
    | cons a args ih =>
        have hrest : r ∈ attrReads scope args → ∃ e mode,
            (Node.invocation pos name (a :: args)).ReadsAt r.pos e ∧
              r = readOf scope e r.pos mode := by
          intro hr
          obtain ⟨e, mode, hreads, heq⟩ := ih hr
          refine ⟨e, mode, ?_, heq⟩
          cases hreads with
          | part h he => exact .part (List.mem_cons_of_mem _ h) he
          | argument h => exact .argument (List.mem_cons_of_mem _ h)
        cases a with
        | text q a parts =>
            rcases List.mem_append.1 h with hr | hr
            · obtain ⟨part, hpart, hread⟩ := List.mem_filterMap.1 hr
              cases part with
              | literal p s => cases hread
              | interpolation p e =>
                  cases hread
                  exact ⟨e, _, .part List.mem_cons_self hpart, rfl⟩
            · exact hrest hr
        | expr q a e =>
            rcases List.mem_cons.1 h with rfl | hr
            · exact ⟨e, _, .argument List.mem_cons_self, rfl⟩
            · exact hrest hr
        | content q a body => exact hrest h
  obtain ⟨e, mode, hreads, heq⟩ := hsource
  exact ⟨scope, _, e, mode, .here (List.mem_singleton_self _), hreads, heq⟩

mutual

theorem comesFrom_nodeReads (scope : List Bytes) (n : Node) :
    ∀ r ∈ nodeReads scope n, r.ComesFrom scope [n] := by
  intro r hr
  cases n with
  | literal pos s => cases hr
  | interpolation pos e esc =>
      cases List.mem_singleton.1 hr
      exact ⟨scope, _, e, _, .here (List.mem_singleton_self _), .shown, rfl⟩
  | invocation pos name args =>
      rcases List.mem_append.1 hr with hr | hr
      · exact comesFrom_attrReads pos name hr
      · obtain ⟨b, hb, hrb⟩ := mem_inSourceOrder.1 hr
        obtain ⟨q, a, body, ha, inner, m, e, mode, hinside, hreads⟩ :=
          comesFrom_blockReads scope args b hb r hrb
        exact ⟨inner, m, e, mode, .block (List.mem_singleton_self _) ha hinside, hreads⟩
  | cond pos e body other =>
      have htest : Read.ComesFrom (readOf scope e pos .structural) scope [.cond pos e body other] :=
        ⟨scope, _, e, _, .here (List.mem_singleton_self _), .test, rfl⟩
      have hyes (hr : r ∈ bodyReads scope body) : r.ComesFrom scope [.cond pos e body other] := by
        obtain ⟨inner, m, e', mode, hinside, hreads⟩ := comesFrom_bodyReads scope body r hr
        exact ⟨inner, m, e', mode, .yes (List.mem_singleton_self _) hinside, hreads⟩
      cases other with
      | none =>
          rcases List.mem_cons.1 hr with rfl | hr
          · exact htest
          · exact hyes hr
      | some other =>
          rcases List.mem_cons.1 hr with rfl | hr
          · exact htest
          rcases List.mem_append.1 hr with hr | hr
          · exact hyes hr
          · obtain ⟨inner, m, e', mode, hinside, hreads⟩ := comesFrom_bodyReads scope other r hr
            exact ⟨inner, m, e', mode, .no (List.mem_singleton_self _) hinside, hreads⟩
  | loop pos e item index body =>
      rcases List.mem_cons.1 hr with rfl | hr
      · exact ⟨scope, _, e, _, .here (List.mem_singleton_self _), .collection, rfl⟩
      · obtain ⟨inner, m, e', mode, hinside, hreads⟩ := comesFrom_bodyReads _ body r hr
        exact ⟨inner, m, e', mode, .loop (List.mem_singleton_self _) hinside, hreads⟩

theorem comesFrom_bodyReads (scope : List Bytes) (ns : List Node) :
    ∀ r ∈ bodyReads scope ns, r.ComesFrom scope ns := by
  cases ns with
  | nil => exact fun _ hr => (nomatch hr)
  | cons n ns =>
      refine List.forall_mem_append.2 ⟨fun r hr => ?_, fun r hr => ?_⟩
      · exact (comesFrom_nodeReads scope n r hr).mono (by simp)
      · exact (comesFrom_bodyReads scope ns r hr).mono fun _ h => List.mem_cons_of_mem _ h

theorem comesFrom_blockReads (scope : List Bytes) (args : List Arg) :
    ∀ b ∈ blockReads scope args, ∀ r ∈ b.reads,
      ∃ q a body, .content q a body ∈ args ∧ r.ComesFrom scope body := by
  cases args with
  | nil => exact fun _ hb => (nomatch hb)
  | cons a args =>
      have hrest : ∀ b ∈ blockReads scope args, ∀ r ∈ b.reads,
          ∃ q name body, .content q name body ∈ a :: args ∧ r.ComesFrom scope body := by
        intro b hb r hr
        obtain ⟨q, name, body, hmem, hfrom⟩ := comesFrom_blockReads scope args b hb r hr
        exact ⟨q, name, body, List.mem_cons_of_mem _ hmem, hfrom⟩
      cases a with
      | text pos name parts => exact hrest
      | expr pos name e => exact hrest
      | content pos name body =>
          refine List.forall_mem_append.2 ⟨fun b hb r hr => ?_, hrest⟩
          have hbody := mem_siblingReads.2 ⟨b, hb, hr⟩
          exact ⟨pos, name, body, List.mem_cons_self, comesFrom_bodyReads scope body r hbody⟩

end

theorem exists_read {d : Definition} {m : Node} {p : Pos} {e : Expression}
    (hinside : Inside [] d.body scope m) (hreads : m.ReadsAt p e) :
    ∃ mode, readOf scope e p mode ∈ bodyReads [] d.body := by
  have hnode : ∃ mode, readOf scope e p mode ∈ nodeReads scope m := by
    cases hreads with
    | shown => exact ⟨_, List.mem_singleton_self _⟩
    | @test _ _ _ other => cases other <;> exact ⟨_, List.mem_cons_self⟩
    | collection => exact ⟨_, List.mem_cons_self⟩
    | part h he => exact ⟨_, List.mem_append_left _ (mem_attrReads_part h he)⟩
    | argument h => exact ⟨_, List.mem_append_left _ (mem_attrReads_argument h)⟩
  obtain ⟨mode, hmem⟩ := hnode
  exact ⟨mode, reads_of_inside hinside _ hmem⟩

/-- The names that occur free in a tag are the names of its reads, in the same places. -/
theorem readsFree_iff {d : Definition} {p : Pos} {i : Nat} {n : Bytes} :
    d.ReadsFree p i n ↔ ∃ r ∈ bodyReads [] d.body, r.pos = p ∧ r.names[i]? = some n := by
  constructor
  · rintro ⟨scope, m, e, hinside, hreads, hn⟩
    obtain ⟨mode, hmem⟩ := exists_read hinside hreads
    exact ⟨_, hmem, rfl, hn⟩
  · rintro ⟨r, hr, rfl, hn⟩
    obtain ⟨inner, m, e, mode, hinside, hreads, heq⟩ := comesFrom_bodyReads [] d.body r hr
    refine ⟨inner, m, e, hinside, hreads, ?_⟩
    rw [heq] at hn
    exact hn

/-! ## First occurrences -/

def firsts (known : List Bytes) : List Bytes → List Bytes
  | [] => []
  | n :: ns => if n ∈ known then firsts known ns else n :: firsts (known ++ [n]) ns

@[simp] theorem firsts_nil (known : List Bytes) : firsts known [] = [] := rfl

theorem firsts_cons (known : List Bytes) (n : Bytes) (ns : List Bytes) :
    firsts known (n :: ns) =
      if n ∈ known then firsts known ns else n :: firsts (known ++ [n]) ns :=
  rfl

theorem firsts_append (known ms ns : List Bytes) :
    firsts known (ms ++ ns) = firsts known ms ++ firsts (known ++ firsts known ms) ns := by
  induction ms generalizing known with
  | nil => simp
  | cons m ms ih =>
      rw [List.cons_append, firsts_cons, firsts_cons]
      split
      · exact ih known
      · rw [ih, List.cons_append, List.append_assoc, List.singleton_append]

theorem mem_firsts {known ns : List Bytes} {n : Bytes} :
    n ∈ firsts known ns ↔ n ∈ ns ∧ n ∉ known := by
  induction ns generalizing known with
  | nil => simp
  | cons m ns ih =>
      rw [firsts_cons]
      split
      · rename_i hm
        rw [ih, List.mem_cons]
        refine ⟨fun h => ⟨.inr h.1, h.2⟩, fun ⟨h, hn⟩ => ⟨h.resolve_left ?_, hn⟩⟩
        rintro rfl
        exact hn hm
      · rename_i hm
        rw [List.mem_cons, List.mem_cons, ih, List.mem_append, List.mem_singleton]
        by_cases hnm : n = m
        · simp [hnm, hm]
        · simp [hnm]

theorem nodup_append_firsts {known : List Bytes} (h : known.Nodup) (ns : List Bytes) :
    (known ++ firsts known ns).Nodup := by
  induction ns generalizing known with
  | nil => simpa using h
  | cons n ns ih =>
      rw [firsts_cons]
      split
      · exact ih h
      · rename_i hn
        have hone : (known ++ [n]).Nodup := by
          refine List.nodup_append.2 ⟨h, List.nodup_singleton n, fun a ha b hb => ?_⟩
          rw [List.mem_singleton.1 hb]
          exact fun heq => hn (heq ▸ ha)
        have hcons := ih hone
        rwa [List.append_assoc, List.singleton_append] at hcons

theorem pairwise_firsts {α : Type} {R : α → α → Prop} (name : α → Bytes) {occs : List α}
    (h : occs.Pairwise R) (known : List Bytes) :
    (firsts known (occs.map name)).Pairwise fun m n =>
      ∃ x ∈ occs, name x = m ∧ ∀ y ∈ occs, name y = n → R x y := by
  induction occs generalizing known with
  | nil => exact .nil
  | cons a occs ih =>
      obtain ⟨hfirst, hrest⟩ := List.pairwise_cons.1 h
      -- what stands first is known by then, so it is no occurrence of a later name
      have hlater (known : List Bytes) (ha : name a ∈ known) :
          (firsts known (occs.map name)).Pairwise fun m n =>
            ∃ x ∈ a :: occs, name x = m ∧ ∀ y ∈ a :: occs, name y = n → R x y := by
        refine (ih hrest known).imp_of_mem fun {m n} _ hn => ?_
        rintro ⟨x, hx, hxm, hbefore⟩
        refine ⟨x, List.mem_cons_of_mem _ hx, hxm, fun y hy hyn => ?_⟩
        rcases List.mem_cons.1 hy with rfl | hy
        · exact absurd (hyn ▸ ha) (mem_firsts.1 hn).2
        · exact hbefore y hy hyn
      rw [List.map_cons, firsts_cons]
      split
      · rename_i ha
        exact hlater known ha
      · refine List.pairwise_cons.2 ⟨fun n hn => ?_, hlater _ (by simp)⟩
        refine ⟨a, List.mem_cons_self, rfl, fun y hy hyn => ?_⟩
        rcases List.mem_cons.1 hy with rfl | hy
        · exact absurd (by simp [hyn]) (mem_firsts.1 hn).2
        · exact hfirst y hy

/-! ## What is collected for a tag -/

def Slots.names (slots : Slots) : List Bytes := slots.map (·.param.name)

theorem Slots.names_eq_keys (slots : Slots) : slots.names = slots.keys.map (·.2.name) := by
  rw [names, keys, List.map_map]
  rfl

theorem Slots.names_update {f : Slot → Slot} (hf : Slots.Adds f) (slots : Slots)
    (tag name : Bytes) : (slots.update tag name f).names = slots.names := by
  rw [names_eq_keys, names_eq_keys, keys_update hf]

def Slots.Of (tag : Bytes) (slots : Slots) : Prop := ∀ key ∈ slots.keys, key.1 = tag

theorem Slots.Of.has_iff {tag : Bytes} {slots : Slots} (h : slots.Of tag) (name : Bytes) :
    slots.has tag name = true ↔ name ∈ slots.names := by
  rw [has_eq_keys, names_eq_keys, List.any_eq_true, List.mem_map]
  refine exists_congr fun key => ⟨fun ⟨hkey, heq⟩ => ?_, fun ⟨hkey, heq⟩ => ?_⟩
  · simp only [Bool.and_eq_true, beq_iff_eq] at heq
    exact ⟨hkey, heq.2⟩
  · simp only [Bool.and_eq_true, beq_iff_eq]
    exact ⟨hkey, h key hkey, heq⟩

theorem names_recordName (d : Definition) (r : Read) {slots : Slots} (h : slots.Of d.name)
    (name : Bytes) :
    (recordName d r slots name).Of d.name ∧
      (recordName d r slots name).names = slots.names ++ firsts slots.names [name] := by
  unfold recordName
  extract_lets known at_
  have hknown : known.Of d.name ∧ known.names = slots.names ++ firsts slots.names [name] := by
    simp only [known, firsts_cons, firsts_nil]
    split
    · rename_i hhas
      rw [if_pos ((h.has_iff name).1 hhas), List.append_nil]
      exact ⟨h, rfl⟩
    · rename_i hhas
      rw [if_neg fun hmem => hhas ((h.has_iff name).2 hmem)]
      refine ⟨?_, by simp [Slots.names]⟩
      rw [Slots.Of, Slots.keys, List.map_append]
      refine List.forall_mem_append.2 ⟨h, fun key hkey => ?_⟩
      rw [List.map_singleton, List.mem_singleton] at hkey
      rw [hkey]
  have hupdate (f : Slot → Slot) (hf : Slots.Adds f) : (known.update d.name name f).Of d.name ∧
      (known.update d.name name f).names = slots.names ++ firsts slots.names [name] := by
    rw [Slots.Of, Slots.keys_update hf, Slots.names_update hf]
    exact hknown
  cases r.mode with
  | structural => exact hupdate _ (Slot.le_asValue at_)
  | scalar => exact hupdate _ (Slot.le_asScalar at_)
  | render => exact hknown
  | passThrough => exact hknown

theorem names_recordRead (d : Definition) (r : Read) {slots : Slots} (h : slots.Of d.name) :
    (recordRead d slots r).Of d.name ∧
      (recordRead d slots r).names = slots.names ++ firsts slots.names r.names := by
  rw [recordRead]
  generalize r.names = ns
  induction ns generalizing slots with
  | nil => exact ⟨h, by simp⟩
  | cons n ns ih =>
      obtain ⟨hof, hnames⟩ := names_recordName d r h n
      obtain ⟨hof', hnames'⟩ := ih hof
      refine ⟨hof', ?_⟩
      rw [List.foldl_cons, hnames', hnames, List.append_assoc, ← firsts_append,
        List.singleton_append]

/-- What is collected for a tag has the names of the declarations, then what the body reads. -/
theorem names_collect (d : Definition) :
    (collect d).Of d.name ∧ (collect d).names = d.decls.map (·.name) ++
      firsts (d.decls.map (·.name)) ((bodyReads [] d.body).flatMap (·.names)) := by
  have hdecls : Slots.Of d.name (d.decls.map (declared d)) ∧
      Slots.names (d.decls.map (declared d)) = d.decls.map (·.name) := by
    refine ⟨fun key hkey => ?_, ?_⟩
    · obtain ⟨slot, hslot, rfl⟩ := List.mem_map.1 hkey
      obtain ⟨decl, -, rfl⟩ := List.mem_map.1 hslot
      rfl
    · rw [Slots.names, List.map_map]
      rfl
  have hreads (reads : List Read) {slots : Slots} (h : slots.Of d.name) :
      (reads.foldl (recordRead d) slots).Of d.name ∧ (reads.foldl (recordRead d) slots).names =
        slots.names ++ firsts slots.names (reads.flatMap (·.names)) := by
    induction reads generalizing slots with
    | nil => exact ⟨h, by simp⟩
    | cons r reads ih =>
        obtain ⟨hof, hnames⟩ := names_recordRead d r h
        obtain ⟨hof', hnames'⟩ := ih hof
        refine ⟨hof', ?_⟩
        rw [List.foldl_cons, hnames', hnames, List.append_assoc, ← firsts_append,
          List.flatMap_cons]
  rw [collect]
  refine ⟨(hreads _ hdecls.1).1, ?_⟩
  rw [(hreads _ hdecls.1).2, hdecls.2]

/-! ## Signatures -/

/-- The parameters of a tag have the names that were collected for it, in their order. -/
theorem names_signatureOf {set : TagSet} (hnames : (set.defs.map (·.name)).Nodup) {d : Definition}
    (hd : d ∈ set.defs) : (signatureOf (evidence set) d.name).names = (collect d).names := by
  have hkeys : (evidence set).keys = Slots.keys (set.defs.flatMap collect) :=
    (grows_evidence set).keys.trans (binds_gathered set).grows.keys
  have hofTag (slots : Slots) : Slots.names (slots.ofTag d.name) =
      (slots.keys.filter (·.1 == d.name)).map (·.2.name) := by
    rw [Slots.ofTag, Slots.names, Slots.keys, List.filter_map, List.map_map]
    rfl
  have hsignature : (signatureOf (evidence set) d.name).names =
      Slots.names ((evidence set).ofTag d.name) := by
    rw [Signature.names, signatureOf, List.map_map]
    rfl
  have hone (e : Definition) : Slots.names (Slots.ofTag (collect e) d.name) =
      if e.name = d.name then (collect e).names else [] := by
    have htags : ∀ s ∈ collect e, s.tag = e.name := fun s hs =>
      (names_collect e).1 (s.tag, s.param) (List.mem_map.2 ⟨s, hs, rfl⟩)
    split
    · rename_i heq
      rw [Slots.ofTag, List.filter_eq_self.2 fun s hs => beq_iff_eq.2 ((htags s hs).trans heq)]
    · rename_i hne
      rw [Slots.ofTag, List.filter_eq_nil_iff.2 fun s hs => ?_]
      · rfl
      · rw [beq_iff_eq, htags s hs]
        exact hne
  rw [hsignature, hofTag, hkeys, ← hofTag]
  generalize set.defs = defs at hnames hd
  induction defs with
  | nil => cases hd
  | cons e defs ih =>
      have hcons : Slots.names (Slots.ofTag ((e :: defs).flatMap collect) d.name) =
          Slots.names (Slots.ofTag (collect e) d.name) ++
            Slots.names (Slots.ofTag (defs.flatMap collect) d.name) := by
        rw [List.flatMap_cons, Slots.ofTag, List.filter_append, Slots.names, List.map_append]
        rfl
      rw [hcons, hone]
      rw [List.map_cons, List.nodup_cons] at hnames
      rcases List.mem_cons.1 hd with rfl | hd
      · have hrest : Slots.ofTag (defs.flatMap collect) d.name = [] := by
          refine List.filter_eq_nil_iff.2 fun s hs => ?_
          obtain ⟨f, hf, hsf⟩ := List.mem_flatMap.1 hs
          have htag : s.tag = f.name :=
            (names_collect f).1 (s.tag, s.param) (List.mem_map.2 ⟨s, hsf, rfl⟩)
          rw [beq_iff_eq, htag]
          exact fun h => hnames.1 (List.mem_map.2 ⟨f, hf, h⟩)
        rw [if_pos rfl, hrest]
        exact List.append_nil _
      · have hne : e.name ≠ d.name := fun h => hnames.1 (List.mem_map.2 ⟨d, hd, h.symm⟩)
        rw [if_neg hne, List.nil_append]
        exact ih hnames.2 hd

/-! ## The order of free names -/

/-- One occurrence of a free name: the position of the expression, and the place among its names. -/
structure Occurrence where
  pos : Pos
  index : Nat
  name : Bytes

def Occurrence.Before (x y : Occurrence) : Prop :=
  x.pos.before y.pos = true ∨ x.pos = y.pos ∧ x.index < y.index

def Read.occurrences (r : Read) : List Occurrence :=
  r.names.zipIdx.map fun (n, i) => ⟨r.pos, i, n⟩

theorem Read.names_occurrences (r : Read) : r.occurrences.map (·.name) = r.names := by
  rw [occurrences, List.map_map]
  exact List.zipIdx_map_fst 0 r.names

theorem Read.mem_occurrences {r : Read} {x : Occurrence} :
    x ∈ r.occurrences ↔ r.pos = x.pos ∧ r.names[x.index]? = some x.name := by
  rw [occurrences, List.mem_map]
  constructor
  · rintro ⟨⟨n, i⟩, hmem, rfl⟩
    exact ⟨rfl, List.mk_mem_zipIdx_iff_getElem?.1 hmem⟩
  · rintro ⟨hpos, hname⟩
    exact ⟨(x.name, x.index), List.mk_mem_zipIdx_iff_getElem?.2 hname, by rw [hpos]⟩

theorem Read.pairwise_occurrences (r : Read) : r.occurrences.Pairwise Occurrence.Before := by
  refine List.pairwise_map.2 ?_
  have hindex : (r.names.zipIdx.map (·.2)).Pairwise (· < ·) := by
    rw [List.zipIdx_map_snd]
    exact List.pairwise_lt_range' ..
  exact (List.pairwise_map.1 hindex).imp fun h => .inr ⟨rfl, h⟩

theorem pairwise_occurrences {reads : List Read}
    (h : (reads.map (·.pos)).Pairwise fun p q => p.before q = true) :
    (reads.flatMap Read.occurrences).Pairwise Occurrence.Before := by
  refine List.pairwise_flatMap.2 ⟨fun r _ => r.pairwise_occurrences, ?_⟩
  refine (List.pairwise_map.1 h).imp fun hbefore x hx y hy => .inl ?_
  rw [← (Read.mem_occurrences.1 hx).1, ← (Read.mem_occurrences.1 hy).1]
  exact hbefore

theorem mem_occurrences_iff {d : Definition} {x : Occurrence} :
    x ∈ (bodyReads [] d.body).flatMap Read.occurrences ↔ d.ReadsFree x.pos x.index x.name := by
  simp only [List.mem_flatMap, Read.mem_occurrences, readsFree_iff]

def freeNames (d : Definition) : List Bytes :=
  firsts (d.decls.map (·.name)) ((bodyReads [] d.body).flatMap (·.names))

theorem mem_freeNames {d : Definition} {n : Bytes} :
    n ∈ freeNames d ↔ n ∉ d.decls.map (·.name) ∧ ∃ p i, d.ReadsFree p i n := by
  rw [freeNames, mem_firsts, List.mem_flatMap, and_comm]
  refine and_congr_right fun _ => ?_
  constructor
  · rintro ⟨r, hr, hn⟩
    obtain ⟨i, hi⟩ := List.mem_iff_getElem?.1 hn
    exact ⟨r.pos, i, readsFree_iff.2 ⟨r, hr, rfl, hi⟩⟩
  · rintro ⟨p, i, h⟩
    obtain ⟨r, hr, -, hn⟩ := readsFree_iff.1 h
    exact ⟨r, hr, List.mem_of_getElem? hn⟩

theorem pairwise_freeNames {d : Definition}
    (h : ((bodyReads [] d.body).map (·.pos)).Pairwise fun p q => p.before q = true) :
    (freeNames d).Pairwise d.FirstReadBefore := by
  have hnames : (bodyReads [] d.body).flatMap (·.names) =
      ((bodyReads [] d.body).flatMap Read.occurrences).map (·.name) := by
    rw [List.map_flatMap]
    exact List.flatMap_congr fun r _ => r.names_occurrences.symm
  rw [freeNames, hnames]
  refine (pairwise_firsts _ (pairwise_occurrences h) _).imp ?_
  rintro m n ⟨x, hx, rfl, hbefore⟩
  exact ⟨x.pos, x.index, mem_occurrences_iff.1 hx, fun q j hn =>
    hbefore ⟨q, j, n⟩ (mem_occurrences_iff.2 hn) rfl⟩

end Inference

end TagLoom

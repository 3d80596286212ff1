import TagLoom.Proofs.Compilation.Accepted
import TagLoom.Proofs.Rendering.Sits

/-!
# Soundness of escaping by place

In whatever a rendering of accepted sources writes, every value stands in the place it was escaped
for and does not lead away from it.

## Placed nodes sit

A body that is placed without a report sits in HTML once its escapes are set, when content is read
and handed on as the inference found it.
-/

namespace TagLoom.Placement

open Diagnostic (hasErrors hasErrors_append)
open Inference (IsContentParam ReadsContent HandsContent enterLoop)
open Node (Inside ReadsAs Role)
open Rendering

variable {sigs : List Signature} {tag : Bytes} {scope : List Bytes} {types : Types}

/-! ## Types and content parameters -/

/-- The names that hold content are the content parameters of a tag, apart from loop variables. -/
def Agrees (sigs : List Signature) (tag : Bytes) (scope : List Bytes) (types : Types) : Prop :=
  ∀ n, types.get? n = some .content ↔ n ∉ scope ∧ IsContentParam sigs tag n

theorem Agrees.enterLoop (h : Agrees sigs tag scope types) (item index : Bytes) :
    Agrees sigs tag (enterLoop scope item index) (types.withLoop item index) := by
  intro n
  have h := h n
  rw [Types.get?, Option.map_eq_some_iff] at h
  rw [Types.withLoop, Inference.enterLoop, Types.get?]
  cases hindex : index.isEmpty with
  | true =>
      by_cases hitem : item = n
      · simp [hitem]
      · simp [hitem, Ne.symm hitem, h]
  | false =>
      by_cases hindex : index = n
      · simp [hindex]
      · by_cases hitem : item = n
        · simp [hindex, hitem]
        · simp [hindex, hitem, Ne.symm hitem, Ne.symm hindex, h]

theorem namesContent_of_readsContent (h : Agrees sigs tag scope types) {e : Expression}
    (hspelled : ∀ p m, e.tree = .name p m → e.source = m) (he : ReadsContent sigs tag scope e) :
    NamesContent types e := by
  obtain ⟨p, n, htree, hn⟩ := he
  refine ⟨by rw [Expression.isBare, htree], ?_⟩
  rw [hspelled p n htree]
  exact (h n).2 hn

theorem readsData_of_not_readsContent (h : Agrees sigs tag scope types) {e : Expression}
    (hspelled : ∀ p m, e.tree = .name p m → e.source = m)
    (hread : ∀ m ∈ e.names, m ∉ scope → IsContentParam sigs tag m → e.isBare = true)
    (he : ¬ ReadsContent sigs tag scope e) : ReadsData types e := by
  refine ⟨fun n hn htype => ?_, fun hbare htype => ?_⟩
  · obtain ⟨hscope, hparam⟩ := (h n).1 htype
    obtain ⟨p, m, htree⟩ := Expression.exists_name_of_isBare (hread n hn hscope hparam)
    have hsame := Expression.eq_of_mem_names htree hn
    exact he ⟨p, m, htree, hsame ▸ hscope, hsame ▸ hparam⟩
  · obtain ⟨p, m, htree⟩ := Expression.exists_name_of_isBare hbare
    rw [hspelled p m htree] at htype
    exact he ⟨p, m, htree, (h m).1 htype⟩

/-! ## What is known of a body -/

/-- What is known of a node among the loop variables around it: bare names are spelled as they are,
content is read as a bare name to be written or handed on, and a call is of a tag whose content
parameters get content and others do not. -/
structure Known (b : Bundle) (sigs : List Signature) (tag : Bytes) (scope : List Bytes) (n : Node) :
    Prop where
  spelled : ∀ role e, n.ReadsAs role e → ∀ p m, e.tree = .name p m → e.source = m
  reads : ∀ role e, n.ReadsAs role e → ∀ m ∈ e.names, m ∉ scope → IsContentParam sigs tag m →
    e.isBare = true ∧ (role = .shown ∨ ∃ callee, role = .argument callee)
  free : ∀ m, IsContentParam sigs tag m → Bytes.startsWith m "$" = false
  calls : ∀ pos name args, n = .invocation pos name args → Builtin.find? name = none ∧
    ∀ key param, (((b.find? name).map (·.params)).getD []).find? (·.name == key) = some param →
      match Arg.find? args param.name with
      | none => ∀ e, param.default = some e → e.names = []
      | some a => param.type = .content ↔ HandsContent sigs tag scope a

namespace Known

variable {b : Bundle} {n : Node}

theorem readsData (h : Known b sigs tag scope n) (hagrees : Agrees sigs tag scope types) {role : Role}
    {e : Expression} (hreads : n.ReadsAs role e) (he : ¬ ReadsContent sigs tag scope e) :
    ReadsData types e :=
  readsData_of_not_readsContent hagrees (h.spelled role e hreads)
    (fun m hm hscope hparam => (h.reads role e hreads m hm hscope hparam).1) he

theorem namesContent (h : Known b sigs tag scope n) (hagrees : Agrees sigs tag scope types)
    {role : Role} {e : Expression} (hreads : n.ReadsAs role e) (he : ReadsContent sigs tag scope e) :
    NamesContent types e :=
  namesContent_of_readsContent hagrees (h.spelled role e hreads) he

theorem not_readsContent {pos : Pos} {e : Expression} {item index : Bytes} {body : List Node}
    (h : Known b sigs tag scope (.loop pos e item index body)) : ¬ ReadsContent sigs tag scope e := by
  rintro ⟨p, m, htree, hscope, hparam⟩
  have hm : m ∈ e.names := by simp [Expression.names_of_name htree (h.free m hparam)]
  obtain ⟨-, hrole | ⟨callee, hrole⟩⟩ := h.reads .collection e .collection m hm hscope hparam <;>
    cases hrole

/-- The arguments of a call hand on what parameters take, also with the escapes in blocks set. -/
theorem hands {pos : Pos} {name : Bytes} {args : List Arg}
    (h : Known b sigs tag scope (.invocation pos name args)) (hagrees : Agrees sigs tag scope types)
    (t : Subject) {key : Bytes} {param : Param}
    (hparam : (((b.find? name).map (·.params)).getD []).find? (·.name == key) = some param) :
    Hands types (placeArgs t scope name args).1 param := by
  have hcall := (h.calls pos name args rfl).2 key param hparam
  rw [Hands, find?_placeArgs]
  cases hfind : Arg.find? args param.name with
  | none => simpa [hfind] using hcall
  | some a =>
      rw [hfind] at hcall
      have ha : a ∈ args := List.mem_of_find?_eq_some hfind
      cases a with
      | text q arg parts => trivial
      | content q arg body => exact hcall.2 trivial
      | expr q arg e =>
          by_cases he : ReadsContent sigs tag scope e
          · exact Or.inr ⟨h.namesContent hagrees (.argument ha) he, hcall.2 he⟩
          · exact Or.inl (h.readsData hagrees (.argument ha) he)

end Known

/-! ## Bodies -/

variable {b : Bundle} {d : Definition} {m : Markup}

def subject (sigs : List Signature) (d : Definition) : Subject :=
  ⟨d, (Signature.find? sigs d.name).getD ⟨d.name, []⟩⟩

theorem isContentRead_of_readsContent {e : Expression}
    (hspelled : ∀ p m, e.tree = .name p m → e.source = m)
    (h : ReadsContent sigs d.name scope e) : isContentRead (subject sigs d) scope e = true := by
  obtain ⟨p, n, htree, hscope, sig, param, hsig, hparam, htype⟩ := h
  have hsource := hspelled p n htree
  simp [isContentRead, subject, Expression.isBare, htree, hsource, hscope, hsig, hparam, htype]

/-- An escape that is found for a value fits its place, and content is written to text. -/
theorem takes_of_escapeAt {e : Expression} {pos : Pos} {esc : Escape} (hm : m.QuoteNamed)
    (h : escapeAt (subject sigs d) scope pos e m = .ok esc) :
    m.Takes esc ∧ (isContentRead (subject sigs d) scope e = true → m = .text ∧ esc = .html) := by
  cases m with
  | text =>
      cases h
      exact ⟨.text, fun _ => ⟨rfl, rfl⟩⟩
  | quotedValue tag attr quote =>
      rw [escapeAt] at h
      split at h
      · cases h
      · rename_i hread
        cases h
        exact ⟨.quoted (hm tag attr quote rfl), fun h => absurd h hread⟩
  | _ => cases h

theorem isError_of_escapeAt {t : Subject} {e : Expression} {pos : Pos} {report : Diagnostic}
    (h : escapeAt t scope pos e m = .error report) : report.isError = true := by
  cases m with
  | text => cases h
  | quotedValue tag attr quote =>
      rw [escapeAt] at h
      split at h <;> cases h
      rfl
  | _ =>
      cases h
      rfl

theorem holds_of_quiet {holds : Bool} {t : Subject} {pos : Pos} {message : Bytes}
    (h : hasErrors (if holds then [] else [t.error pos message]) = false) : holds = true := by
  cases holds with
  | true => rfl
  | false => cases h

mutual

theorem sits_placeNode (scope : List Bytes) (types : Types) (m : Markup) (n : Node)
    (hquiet : hasErrors (placeNode (subject sigs d) scope m n).reports = false)
    (hknown : ∀ inner k, Inside scope [n] inner k → Known b sigs d.name inner k)
    (hagrees : Agrees sigs d.name scope types) (hm : m.QuoteNamed) {rest : List Node} {stop : Markup}
    (hrest : Sits b types (placeNode (subject sigs d) scope m n).stop rest stop) :
    Sits b types m ((placeNode (subject sigs d) scope m n).result :: rest) stop := by
  have hself := hknown scope n (.here List.mem_cons_self)
  cases n with
  | literal pos s => exact .literal hrest
  | interpolation pos e esc =>
      rw [placeNode] at hquiet hrest ⊢
      cases hesc : escapeAt (subject sigs d) scope pos e m with
      | error report =>
          rw [hesc] at hquiet
          simp [hasErrors, isError_of_escapeAt hesc] at hquiet
      | ok esc =>
          rw [hesc] at hrest
          obtain ⟨htakes, hcontent⟩ := takes_of_escapeAt hm hesc
          by_cases he : ReadsContent sigs d.name scope e
          · obtain ⟨rfl, rfl⟩ :=
              hcontent (isContentRead_of_readsContent (hself.spelled .shown e .shown) he)
            exact .content (hself.namesContent hagrees .shown he) hrest
          · exact .value (hself.readsData hagrees .shown he) htakes hrest
  | invocation pos name args =>
      rw [placeNode] at hquiet hrest ⊢
      simp only [hasErrors_append] at hquiet
      have htext : m = .text := beq_iff_eq.1 (holds_of_quiet hquiet.1)
      subst htext
      refine .call (hself.calls pos name args rfl).1
        (sits_placeArgs scope types name args hquiet.2 (fun q arg body hbody inner k hk => ?_) hagrees)
        (fun key param hparam => hself.hands hagrees _ hparam) hrest
      exact hknown inner k (.block List.mem_cons_self hbody hk)
  | cond pos e body other =>
      cases other with
      | none =>
          rw [placeNode] at hquiet hrest ⊢
          simp only [hasErrors_append] at hquiet
          have hbody := sits_placeNodes scope types m body hquiet.1
            (fun inner k hk => hknown inner k (.yes List.mem_cons_self hk)) hagrees hm
          have hsame : (placeNodes (subject sigs d) scope m body).stop = m :=
            beq_iff_eq.1 (holds_of_quiet hquiet.2)
          refine .cond hbody ?_ hrest
          rw [hsame]
          exact .nil
      | some other =>
          rw [placeNode] at hquiet hrest ⊢
          simp only [hasErrors_append] at hquiet
          have hbody := sits_placeNodes scope types m body hquiet.1.1
            (fun inner k hk => hknown inner k (.yes List.mem_cons_self hk)) hagrees hm
          have hother := sits_placeNodes scope types m other hquiet.1.2
            (fun inner k hk => hknown inner k (.no List.mem_cons_self hk)) hagrees hm
          have hsame : (placeNodes (subject sigs d) scope m body).stop =
              (placeNodes (subject sigs d) scope m other).stop :=
            beq_iff_eq.1 (holds_of_quiet hquiet.2)
          refine .cond hbody ?_ hrest
          rw [hsame]
          exact hother
  | loop pos e item index body =>
      rw [placeNode] at hquiet hrest ⊢
      simp only [hasErrors_append] at hquiet
      have hbody := sits_placeNodes (enterLoop scope item index) (types.withLoop item index) m body
        hquiet.1 (fun inner k hk => hknown inner k (.loop List.mem_cons_self hk))
        (hagrees.enterLoop item index) hm
      have hsame : (placeNodes (subject sigs d) (enterLoop scope item index) m body).stop = m :=
        beq_iff_eq.1 (holds_of_quiet hquiet.2)
      refine .loop (hself.readsData hagrees .collection hself.not_readsContent) ?_ hrest
      rwa [hsame] at hbody

theorem sits_placeNodes (scope : List Bytes) (types : Types) (m : Markup) (ns : List Node)
    (hquiet : hasErrors (placeNodes (subject sigs d) scope m ns).reports = false)
    (hknown : ∀ inner k, Inside scope ns inner k → Known b sigs d.name inner k)
    (hagrees : Agrees sigs d.name scope types) (hm : m.QuoteNamed) :
    Sits b types m (placeNodes (subject sigs d) scope m ns).result
      (placeNodes (subject sigs d) scope m ns).stop := by
  cases ns with
  | nil => exact .nil
  | cons n ns =>
      rw [placeNodes] at hquiet ⊢
      simp only [hasErrors_append] at hquiet
      have hn : ∀ inner k, Inside scope [n] inner k → Known b sigs d.name inner k :=
        fun inner k hk => hknown inner k (hk.mono (by simp))
      have hns : ∀ inner k, Inside scope ns inner k → Known b sigs d.name inner k :=
        fun inner k hk => hknown inner k (hk.mono (by simp +contextual))
      have hone := sits_placeNode scope types m n hquiet.1 hn hagrees hm .nil
      exact sits_placeNode scope types m n hquiet.1 hn hagrees hm
        (sits_placeNodes scope types _ ns hquiet.2 hns hagrees (hone.quoteNamed hm))

theorem sits_placeArgs (scope : List Bytes) (types : Types) (name : Bytes) (args : List Arg)
    (hquiet : hasErrors (placeArgs (subject sigs d) scope name args).2 = false)
    (hknown : ∀ q arg body, .content q arg body ∈ args →
      ∀ inner k, Inside scope body inner k → Known b sigs d.name inner k)
    (hagrees : Agrees sigs d.name scope types) :
    ∀ q arg body, .content q arg body ∈ (placeArgs (subject sigs d) scope name args).1 →
      Sits b types .text body .text := by
  cases args with
  | nil => exact fun _ _ _ h => nomatch h
  | cons a args =>
      cases a with
      | text pos name' parts =>
          rw [placeArgs] at hquiet ⊢
          have hargs := sits_placeArgs scope types name args hquiet
            (fun q arg body h => hknown q arg body (List.mem_cons_of_mem _ h)) hagrees
          simpa using hargs
      | expr pos name' e =>
          rw [placeArgs] at hquiet ⊢
          have hargs := sits_placeArgs scope types name args hquiet
            (fun q arg body h => hknown q arg body (List.mem_cons_of_mem _ h)) hagrees
          simpa using hargs
      | content pos name' inner =>
          rw [placeArgs] at hquiet ⊢
          simp only [hasErrors_append] at hquiet
          have hargs := sits_placeArgs scope types name args hquiet.2
            (fun q arg body h => hknown q arg body (List.mem_cons_of_mem _ h)) hagrees
          have hinner := sits_placeNodes scope types .text inner hquiet.1.1
            (hknown pos name' inner List.mem_cons_self) hagrees (by simp [Markup.QuoteNamed])
          rw [beq_iff_eq.1 (holds_of_quiet hquiet.1.2)] at hinner
          intro q arg body hmem
          rcases List.mem_cons.1 hmem with heq | hmem
          · cases heq
            exact hinner
          · exact hargs q arg body hmem

end

theorem sits_placeDefinition (hquiet : hasErrors (placeDefinition sigs d).2 = false)
    (hknown : ∀ inner k, Inside [] d.body inner k → Known b sigs d.name inner k)
    (hagrees : Agrees sigs d.name [] types) :
    Sits b types .text (placeDefinition sigs d).1.body .text := by
  rw [placeDefinition] at hquiet
  simp only [hasErrors_append] at hquiet
  have hbody := sits_placeNodes [] types .text d.body hquiet.1 hknown hagrees
    (by simp [Markup.QuoteNamed])
  have hstop : (placeNodes (subject sigs d) [] .text d.body).stop = .text :=
    beq_iff_eq.1 (holds_of_quiet hquiet.2)
  rwa [hstop] at hbody

end TagLoom.Placement

/-! ## What a rendering writes -/

namespace TagLoom.Compilation

open Inference (IsContentParam HandsContent callSites)
open Node (Inside ReadsAs)
open Placement (Agrees Known subject)
open Rendering

variable {files : List SourceFile}

/-- No built-in element is used. -/
def UsesNoBuiltin (files : List SourceFile) : Prop :=
  ∀ d ∈ (builtTags files).defs, ∀ c ∈ callSites d, Builtin.find? c.name = none

/-- Every expression that is nothing but a name is spelled as that name. -/
def SpellsNames (files : List SourceFile) : Prop :=
  ∀ d ∈ (builtTags files).defs, ∀ scope n role e, Inside [] d.body scope n → n.ReadsAs role e →
    ∀ p m, e.tree = .name p m → e.source = m

theorem get?_typesOf (params : List Param) (n : Bytes) :
    (typesOf params).get? n = (params.find? (·.name == n)).map (·.type) := by
  rw [Types.get?, typesOf, List.find?_map, Option.map_map]
  rfl

/-- A parameter of a tag is a content parameter when the first one of its name is content. -/
theorem isContentParam_iff_find? {tag : Bytes} (h : tag ∈ (builtTags files).defs.map (·.name))
    (n : Bytes) : IsContentParam (signaturesOf files) tag n ↔
      ∃ param, (paramsOf files tag).find? (·.name == n) = some param ∧ param.type = .content := by
  have hsig : Signature.find? (signaturesOf files) tag = some _ := Inference.find?_infer h
  constructor
  · rintro ⟨sig, param, hfound, hparam, htype⟩
    rw [hsig] at hfound
    cases hfound
    exact ⟨param, hparam, htype⟩
  · rintro ⟨param, hparam, htype⟩
    exact ⟨_, param, hsig, hparam, htype⟩

theorem agrees_params {tag : Bytes} (h : tag ∈ (builtTags files).defs.map (·.name)) :
    Agrees (signaturesOf files) tag [] (typesOf (paramsOf files tag)) := by
  intro n
  rw [get?_typesOf, Option.map_eq_some_iff, isContentParam_iff_find? h]
  simp

theorem Accepted.known (h : Accepted files) (hbuiltin : UsesNoBuiltin files)
    (hspelled : SpellsNames files) {d : Definition} (hd : d ∈ (builtTags files).defs)
    {scope : List Bytes} {n : Node} (hinside : Inside [] d.body scope n) :
    Known (bundleOf files) (signaturesOf files) d.name scope n := by
  have hclean := TagSet.build_clean h.built
  have hcaller : d.name ∈ (builtTags files).defs.map (·.name) := List.mem_map.2 ⟨d, hd, rfl⟩
  refine ⟨fun role e => hspelled d hd scope n role e hinside, fun role e hreads m hm hscope hparam => ?_,
    fun m hparam => ?_, ?_⟩
  · obtain ⟨hbare, hrole⟩ := Inference.shown_or_handed h.quiet hclean.names hd (hspelled d hd) hinside
      hreads hm hscope hparam
    refine ⟨hbare, hrole.imp_right ?_⟩
    rintro ⟨callee, hcallee, -⟩
    exact ⟨callee, hcallee⟩
  · obtain ⟨param, hfind, -⟩ := (isContentParam_iff_find? hcaller m).1 hparam
    have hname : param.name = m := by simpa using List.find?_some hfind
    exact hname ▸ (h.isFree_param (List.mem_of_find?_eq_some hfind)).plain
  · rintro pos name args rfl
    have hsite : ⟨d.name, d.file, scope, pos, name, args⟩ ∈ callSites d :=
      Inference.call_of_inside hinside
    have hnone := hbuiltin d hd _ hsite
    obtain ⟨huser, hcallee⟩ := hclean.resolved d hd _ hsite hnone
    refine ⟨hnone, fun key param hfind => ?_⟩
    obtain ⟨t, ht, hparams⟩ := find?_bundleOf hcallee
    have ht : (bundleOf files).find? name = some t := ht
    rw [ht, Option.map_some, Option.getD_some, hparams] at hfind
    have hname : param.name = key := by simpa using List.find?_some hfind
    cases harg : Arg.find? args param.name with
    | none => exact fun e he => (h.default (List.mem_of_find?_eq_some hfind) he).2
    | some a =>
        have ha : a ∈ args := List.mem_of_find?_eq_some harg
        have haname : a.name = param.name := by simpa using List.find?_some harg
        have hparam : (Inference.signatureOf (Inference.evidence (builtTags files)) name).param? key =
            some param := hfind
        have hhas : (Inference.evidence (builtTags files)).has name a.name = true := by
          rw [Inference.param?_signatureOf, Option.map_eq_some_iff] at hparam
          obtain ⟨s, hs, -⟩ := hparam
          rw [haname, hname, Inference.Slots.has, hs]
          rfl
        have hhands : IsContentParam (signaturesOf files) name a.name ↔
            HandsContent (signaturesOf files) d.name scope a :=
          Inference.content_iff_handsContent h.quiet.slots hcaller hcallee huser
            (Inference.given_evidence hd hsite ha)
            (fun q arg e he => hspelled d hd scope _ _ e hinside (.argument (he ▸ ha))) hhas
        have htype : param.type = .content ↔ IsContentParam (signaturesOf files) name a.name := by
          rw [isContentParam_iff_find? hcallee, haname, hname]
          refine ⟨fun htype => ⟨param, hfind, htype⟩, ?_⟩
          rintro ⟨first, hfirst, htype⟩
          rw [hfind] at hfirst
          cases hfirst
          exact htype
        exact htype.trans hhands

theorem Accepted.settled (h : Accepted files) (hbuiltin : UsesNoBuiltin files)
    (hspelled : SpellsNames files) : (bundleOf files).Settled := by
  refine ⟨fun t ht => ?_, fun t ht param hparam e he => ?_⟩
  · obtain ⟨d, hd, rfl, hparams⟩ := exists_loaded ht
    have hplaced := Diagnostic.hasErrors_flatMap.1 h.placed _ (List.mem_map.2 ⟨d, hd, rfl⟩)
    have hagrees := agrees_params (List.mem_map.2 ⟨d, hd, rfl⟩)
    rw [← hparams] at hagrees
    exact Placement.sits_placeDefinition hplaced (fun _ _ => h.known hbuiltin hspelled hd) hagrees
  · obtain ⟨d, hd, -, hparams⟩ := exists_loaded ht
    rw [hparams] at hparam
    exact (h.default hparam he).2

/-- Whatever rendering a tag of accepted sources for a model of data writes, cut into the texts of
literals and the escaped texts of values, each value stands in a place that takes its escape and does
not lead away from it; a rendering that ends without an error ends in text.  All that matters of the
language of expressions is that it makes nothing to be rendered. -/
theorem values_stand_where_escaped [Language] [LawfulLanguage] (h : Accepted files)
    (hbuiltin : UsesNoBuiltin files)
    (hspelled : SpellsNames files) (depth : Nat) (tag : Bytes) {model : Env NodeBlock}
    (hmodel : ∀ entry ∈ model, entry.2.IsData) (page : Page) :
    let pieces := (bundleOf files).pieces depth tag model page
    let result := ((bundleOf files).registryWithin depth).render tag model page
    (∀ before piece after, pieces = before ++ piece :: after →
      piece.Stands (placeAfter .text before)) ∧
    (∀ page' error, result = some (page', error) → page.Emits (spell pieces) page') ∧
    ∀ page', result = some (page', none) → placeAfter .text pieces = .text := by
  intro pieces result
  obtain ⟨hstand, hends⟩ := (h.settled hbuiltin hspelled).pieces depth tag hmodel page
  exact ⟨hstand, fun page' error hresult => (bundleOf files).emits_pieces depth tag model page hresult,
    hends⟩

def sumPieces : List Piece :=
  [.literal "<a href=\"", .value .url "1", .literal "\">", .value .html "3", .literal "</a>"]

theorem values_stand_where_escaped_sumPage :
    Accepted [sumPage] ∧ UsesNoBuiltin [sumPage] ∧ SpellsNames [sumPage] ∧
    (∀ entry ∈ [(Bytes.ofString "n", (Value.ofInt 1 : Value NodeBlock))], entry.2.IsData) ∧
    (bundleOf [sumPage]).pieces 1 "sum" [("n", .ofInt 1)] (.blank none false) = sumPieces ∧
    ∀ before piece after, sumPieces = before ++ piece :: after →
      piece.Stands (placeAfter .text before) := by
  have hdefs : (builtTags [sumPage]).defs = sumTemplate.defs := by
    rw [builtTags, templatesOf_sumPage]
    cbv
  have hbuiltin : UsesNoBuiltin [sumPage] := by
    intro d hd c hc
    rw [hdefs] at hd
    rw [List.mem_singleton.1 hd] at hc
    cases hc
  have hspelled : SpellsNames [sumPage] := by
    intro d hd scope n role e hinside hreads
    rw [hdefs] at hd
    rw [List.mem_singleton.1 hd] at hinside
    intro p m htree
    cases hinside <;> simp_all [sumTemplate]
    rename_i h
    rcases h with rfl | rfl | rfl | rfl | rfl <;> cases hreads <;> cases htree
  have hmodel : ∀ entry ∈ [(Bytes.ofString "n", (Value.ofInt 1 : Value NodeBlock))],
      entry.2.IsData := by
    simp [Value.ofInt, Value.IsData, Value.All]
  have hpieces :
      (bundleOf [sumPage]).pieces 1 "sum" [("n", .ofInt 1)] (.blank none false) = sumPieces := by
    rw [bundleOf, tagsOf, signaturesOf, templatesOf_sumPage]
    decide +kernel
  have hstand := (values_stand_where_escaped accepted_sumPage hbuiltin hspelled 1 "sum" hmodel
    (.blank none false)).1
  rw [hpieces] at hstand
  exact ⟨accepted_sumPage, hbuiltin, hspelled, hmodel, hpieces, hstand⟩

end TagLoom.Compilation

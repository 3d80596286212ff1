import TagLoom.Proofs.Inference.Soundness

/-!
# Checked calls

The inference meets every call of a tag set once, wherever it stands, and what it reports there
follows from the arguments of the call and the signature of the tag that is called.
-/

namespace TagLoom

/-! ## Paths -/

def Arg.block : Arg → List Node
  | .content _ _ body => body
  | .text _ _ _ => []
  | .expr _ _ _ => []

namespace Node

/-- The lists of nodes right below a node: the branches of a control, what the arguments hold. -/
def blocks : Node → List (List Node)
  | .literal _ _ => []
  | .interpolation _ _ _ => []
  | .cond _ _ body other => body :: other.toList
  | .loop _ _ _ _ body => [body]
  | .invocation _ _ args => args.map Arg.block

mutual

/-- The node at a path: the index of one of some nodes, then a path below that node. -/
def at? (ns : List Node) : List Nat → Option Node
  | [] => none
  | i :: path => ns[i]?.bind fun n => n.below? path

/-- The node at a path below a node: the node itself, or the index of a block of it, then a path in
that block. -/
def below? (n : Node) : List Nat → Option Node
  | [] => some n
  | b :: path => n.blocks[b]?.bind fun body => at? body path

end

def inBlocks? (bodies : List (List Node)) : List Nat → Option Node
  | [] => none
  | b :: path => bodies[b]?.bind fun body => at? body path

theorem below?_cons (n : Node) (b : Nat) (path : List Nat) :
    n.below? (b :: path) = inBlocks? n.blocks (b :: path) := by
  rw [below?, inBlocks?]

theorem below?_of_inBlocks? {n m : Node} {path : List Nat} (h : inBlocks? n.blocks path = some m) :
    n.below? path = some m := by
  cases path with
  | nil => cases h
  | cons b path => rwa [below?_cons]

end Node

namespace Inference

open Node (at? below? inBlocks?)

/-! ## Visits -/

/-- The calls of a list stand at the paths of another, in turn; the paths are different, and an
invocation stands at no other path. -/
structure CallsAt (d : Definition) (look : List Nat → Option Node) (paths : List (List Nat))
    (calls : List CallSite) : Prop where
  each : List.Forall₂ (fun path c => look path = some (.invocation c.pos c.name c.args) ∧
    c.caller = d.name ∧ c.file = d.file) paths calls
  once : paths.Nodup
  every : ∀ path pos name args, look path = some (.invocation pos name args) → path ∈ paths

namespace CallsAt

variable {d : Definition} {look first rest : List Nat → Option Node} {paths paths' : List (List Nat)}
  {calls calls' : List CallSite}

theorem nil (h : ∀ path pos name args, look path ≠ some (.invocation pos name args)) :
    CallsAt d look [] [] :=
  ⟨.nil, List.nodup_nil, fun path pos name args hn => absurd hn (h path pos name args)⟩

theorem nil_not_mem (h : CallsAt d look paths calls) (hnil : look [] = none) : [] ∉ paths := by
  intro hmem
  obtain ⟨i, hi, hpath⟩ := List.getElem_of_mem hmem
  have hcalls : i < calls.length := by rw [← h.each.length_eq]; exact hi
  have hnode := (h.each.get hi hcalls).1
  simp [hpath, hnil] at hnode

theorem modifyHead_injective {f : Nat → Nat} (hf : Function.Injective f) :
    Function.Injective (List.modifyHead f) := by
  intro path path' h
  cases path <;> cases path' <;> simp at h
  · rfl
  · rw [hf h.1, h.2]

/-- The paths in a list are those in its first element and those in the others, there with the first
index counted on. -/
theorem cons (hnil : look [] = none) (hrest_nil : rest [] = none)
    (hfirst : ∀ path, look (0 :: path) = first path)
    (hrest : ∀ i path, look ((i + 1) :: path) = rest (i :: path))
    (h : CallsAt d first paths calls) (h' : CallsAt d rest paths' calls') :
    CallsAt d look (paths.map (0 :: ·) ++ paths'.map (List.modifyHead (· + 1)))
      (calls ++ calls') := by
  constructor
  · apply List.rel_append
    · rw [List.forall₂_map_left_iff]
      simpa only [hfirst] using h.each
    · rw [List.forall₂_map_left_iff]
      refine h'.each.imp fun path c hc => ?_
      cases path with
      | nil => simp [hrest_nil] at hc
      | cons i path => simpa [hrest] using hc
  · rw [List.nodup_append]
    refine ⟨h.once.map List.cons_injective, h'.once.map (modifyHead_injective Nat.succ_injective), ?_⟩
    intro path hpath path' hpath' heq
    obtain ⟨q, -, rfl⟩ := List.mem_map.1 hpath
    obtain ⟨q', -, rfl⟩ := List.mem_map.1 hpath'
    cases q' <;> simp at heq
  · intro path pos name args hn
    cases path with
    | nil => simp [hnil] at hn
    | cons i path =>
        cases i with
        | zero =>
            rw [hfirst] at hn
            have hmem := h.every path pos name args hn
            simp [hmem]
        | succ i =>
            rw [hrest] at hn
            have hmem := h'.every (i :: path) pos name args hn
            exact List.mem_append_right _ (List.mem_map.2 ⟨i :: path, hmem, rfl⟩)

theorem below_invocation {scope : List Bytes} {pos : Pos} {name : Bytes} {args : List Arg}
    (h : CallsAt d (inBlocks? (args.map Arg.block)) paths calls) :
    CallsAt d (below? (.invocation pos name args)) ([] :: paths)
      (⟨d.name, d.file, scope, pos, name, args⟩ :: calls) := by
  constructor
  · refine .cons ⟨by rw [below?], rfl, rfl⟩ (h.each.imp fun path c hc => ?_)
    exact ⟨Node.below?_of_inBlocks? hc.1, hc.2⟩
  · exact List.nodup_cons.2 ⟨h.nil_not_mem rfl, h.once⟩
  · intro path pos' name' args' hn
    cases path with
    | nil => exact List.mem_cons_self
    | cons b path =>
        rw [Node.below?_cons] at hn
        exact List.mem_cons_of_mem [] (h.every _ _ _ _ hn)

theorem below {n : Node} (hnode : ∀ pos name args, n ≠ .invocation pos name args)
    (h : CallsAt d (inBlocks? n.blocks) paths calls) : CallsAt d n.below? paths calls := by
  refine ⟨h.each.imp fun path c hc => ⟨Node.below?_of_inBlocks? hc.1, hc.2⟩, h.once, ?_⟩
  intro path pos name args hn
  cases path with
  | nil =>
      rw [below?, Option.some_inj] at hn
      exact absurd hn (hnode pos name args)
  | cons b path =>
      rw [Node.below?_cons] at hn
      exact h.every _ _ _ _ hn

theorem body_nil : CallsAt d (at? []) [] [] := by
  apply nil
  rintro (_ | ⟨i, path⟩) <;> simp [at?]

theorem blocks_nil : CallsAt d (inBlocks? []) [] [] := by
  apply nil
  rintro (_ | ⟨b, path⟩) <;> simp [inBlocks?]

theorem blocks_cons {body : List Node} {bodies : List (List Node)}
    (h : CallsAt d (at? body) paths calls) (h' : CallsAt d (inBlocks? bodies) paths' calls') :
    ∃ ps, CallsAt d (inBlocks? (body :: bodies)) ps (calls ++ calls') :=
  ⟨_, cons rfl rfl (fun _ => rfl) (fun _ _ => rfl) h h'⟩

end CallsAt

section Visits

variable (d : Definition)

mutual

/-- Each call in a node has a path below that node, and each invocation there is such a call. -/
theorem callsAt_node (scope : List Bytes) (n : Node) :
    ∃ paths, CallsAt d n.below? paths (nodeCalls d scope n) := by
  cases n with
  | literal pos s => exact ⟨_, .below (by simp) .blocks_nil⟩
  | interpolation pos e esc => exact ⟨_, .below (by simp) .blocks_nil⟩
  | invocation pos name args =>
      obtain ⟨paths, h⟩ := callsAt_args scope args
      exact ⟨_, h.below_invocation⟩
  | cond pos e body other =>
      obtain ⟨paths, h⟩ := callsAt_body scope body
      cases other with
      | none =>
          obtain ⟨ps, hblocks⟩ := h.blocks_cons .blocks_nil
          rw [List.append_nil] at hblocks
          exact ⟨ps, .below (by simp) hblocks⟩
      | some other =>
          obtain ⟨paths', h'⟩ := callsAt_body scope other
          obtain ⟨ps', hother⟩ := h'.blocks_cons .blocks_nil
          obtain ⟨ps, hblocks⟩ := h.blocks_cons hother
          rw [List.append_nil] at hblocks
          exact ⟨ps, .below (by simp) hblocks⟩
  | loop pos e item index body =>
      obtain ⟨paths, h⟩ := callsAt_body (enterLoop scope item index) body
      obtain ⟨ps, hblocks⟩ := h.blocks_cons .blocks_nil
      rw [List.append_nil] at hblocks
      exact ⟨ps, .below (by simp) hblocks⟩

theorem callsAt_body (scope : List Bytes) (ns : List Node) :
    ∃ paths, CallsAt d (at? ns) paths (bodyCalls d scope ns) := by
  cases ns with
  | nil => exact ⟨_, .body_nil⟩
  | cons n ns =>
      obtain ⟨paths, h⟩ := callsAt_node scope n
      obtain ⟨paths', h'⟩ := callsAt_body scope ns
      exact ⟨_, .cons rfl rfl (fun _ => rfl) (fun _ _ => rfl) h h'⟩

theorem callsAt_args (scope : List Bytes) (args : List Arg) :
    ∃ paths, CallsAt d (inBlocks? (args.map Arg.block)) paths (argCalls d scope args) := by
  cases args with
  | nil => exact ⟨_, .blocks_nil⟩
  | cons a args =>
      obtain ⟨paths, h⟩ := callsAt_args scope args
      cases a with
      | text pos name parts => exact CallsAt.body_nil.blocks_cons h
      | expr pos name e => exact CallsAt.body_nil.blocks_cons h
      | content pos name body =>
          obtain ⟨paths', hbody⟩ := callsAt_body scope body
          exact hbody.blocks_cons h

end

end Visits

/-! ## Reports on a call -/

def argReport (sig : Signature) (site : CallSite) (earlier : List Arg) (a : Arg) :
    Option Diagnostic :=
  if a.name ∉ sig.names then some (unknownParam site a sig.names)
  else if a.name ∈ earlier.map Arg.name then some (repeated site a)
  else none

def argReports (sig : Signature) (site : CallSite) (args : List Arg) : List Diagnostic :=
  args.zipIdx.filterMap fun (a, i) => argReport sig site (args.take i) a

/-- The required parameters that no argument binds. -/
def unbound (sig : Signature) (args : List Arg) : List Param :=
  sig.params.filter fun p => p.required && p.name ∉ args.map Arg.name

/-- The report on parameters that a call leaves out. -/
def missingArgs (site : CallSite) (params : List Param) : Diagnostic :=
  siteError site site.pos ("<" ++ site.name ++ "> is missing required " ++
    (if params.length > 1 then Bytes.ofString "arguments" else "argument") ++ " " ++
      Bytes.join ", " (params.map fun p => Bytes.quote p.name))

theorem isNone_param? {sig : Signature} {name : Bytes} :
    (sig.param? name).isNone = true ↔ name ∉ sig.names := by
  simp [Signature.param?, Signature.names]

theorem argReports_concat (sig : Signature) (site : CallSite) (args : List Arg) (a : Arg) :
    argReports sig site (args ++ [a]) =
      argReports sig site args ++ (argReport sig site args a).toList :=
  filterMap_earlier_concat (argReport sig site) args a

/-- What is known after some arguments of a call: the parameters they bind and the reports. -/
structure Checked (sig : Signature) (site : CallSite) (args : List Arg) (bound : Bound) : Prop where
  names : ∀ name, name ∈ bound.names ↔ name ∈ sig.names ∧ name ∈ args.map Arg.name
  reports : bound.reports = argReports sig site args

theorem Checked.arg {sig : Signature} {site : CallSite} {args : List Arg} {bound : Bound}
    (h : Checked sig site args bound) (a : Arg) :
    Checked sig site (args ++ [a]) (checkArg site sig bound a) := by
  have hbound (name : Bytes) : name ∈ sig.names ∧ name ∈ (args ++ [a]).map Arg.name ↔
      name ∈ bound.names ∨ name ∈ sig.names ∧ name = a.name := by
    rw [h.names, List.map_append, List.mem_append, List.map_singleton, List.mem_singleton]
    tauto
  unfold checkArg
  by_cases hknown : a.name ∈ sig.names
  · rw [if_neg (by rw [isNone_param?]; exact not_not_intro hknown)]
    by_cases hseen : a.name ∈ bound.names
    · rw [if_pos (by simpa using hseen)]
      have hearlier : a.name ∈ args.map Arg.name := ((h.names a.name).1 hseen).2
      constructor
      · intro name
        rw [hbound]
        constructor
        · exact Or.inl
        · rintro (hname | ⟨-, rfl⟩)
          · exact hname
          · exact hseen
      · simp [argReports_concat, h.reports, argReport, hknown, hearlier]
    · rw [if_neg (by simpa using hseen)]
      have hfirst : a.name ∉ args.map Arg.name := fun hmem =>
        hseen ((h.names a.name).2 ⟨hknown, hmem⟩)
      constructor
      · intro name
        rw [hbound, List.mem_append, List.mem_singleton]
        constructor
        · rintro (hname | rfl)
          · exact Or.inl hname
          · exact Or.inr ⟨hknown, rfl⟩
        · rintro (hname | ⟨-, rfl⟩)
          · exact Or.inl hname
          · exact Or.inr rfl
      · simp [argReports_concat, h.reports, argReport, hknown, hfirst]
  · rw [if_pos (isNone_param?.2 hknown)]
    constructor
    · intro name
      rw [hbound]
      constructor
      · exact Or.inl
      · rintro (hname | ⟨hname, rfl⟩)
        · exact hname
        · exact absurd hname hknown
    · simp [argReports_concat, h.reports, argReport, hknown]

theorem checked_args (sig : Signature) (site : CallSite) (args : List Arg) :
    Checked sig site args (args.foldl (checkArg site sig) ⟨[], []⟩) := by
  induction args using List.reverseRecOn with
  | nil => exact ⟨by simp, rfl⟩
  | append_singleton args a ih =>
      rw [List.foldl_append]
      exact ih.arg a

/-- A call is reported on for its arguments, in turn, and once for all it leaves out. -/
theorem checkCall_eq (sig : Signature) (site : CallSite) :
    checkCall sig site = argReports sig site site.args ++
      (if unbound sig site.args = [] then [] else [missingArgs site (unbound sig site.args)]) := by
  have h := checked_args sig site site.args
  have hunbound : (sig.params.filter fun p => p.required &&
      !(site.args.foldl (checkArg site sig) ⟨[], []⟩).names.contains p.name) =
        unbound sig site.args := by
    refine List.filter_congr fun p hp => ?_
    have hknown : p.name ∈ sig.names := List.mem_map.2 ⟨p, hp, rfl⟩
    have hbound : (site.args.foldl (checkArg site sig) ⟨[], []⟩).names.contains p.name =
        decide (p.name ∈ site.args.map Arg.name) := by
      rw [List.contains_eq_mem, decide_eq_decide, h.names]
      exact and_iff_right hknown
    rw [hbound, decide_not]
  rw [checkCall, hunbound, h.reports]
  simp [missingArgs]

/-! ## All calls -/

/-- The inference reports on the defaults and the parameters of each tag and then on each call.  The
calls of a tag are the invocations in its body, each met once.  A call of a tag of the set, by a name
that does not belong to the compiler, is reported on for each name that is no parameter, for each
further use of a parameter, and once for all required parameters that nothing binds. -/
theorem calls_checked_once (set : TagSet) :
    let sigs := (infer set).1
    (infer set).2 = set.defs.flatMap defaultReports ++
        set.defs.flatMap (fun d => ((evidence set).ofTag d.name).flatMap slotReports) ++
      (set.defs.flatMap callSites).flatMap (checkSite sigs) ∧
    ∀ d ∈ set.defs,
      (∃ paths, CallsAt d (at? d.body) paths (callSites d)) ∧
      ∀ c ∈ callSites d, Name.isBuiltin c.name = false → c.name ∈ set.defs.map (·.name) →
        ∃ sig, Signature.find? sigs c.name = some sig ∧
          checkSite sigs c = argReports sig c c.args ++
            (if unbound sig c.args = [] then [] else [missingArgs c (unbound sig c.args)]) := by
  intro sigs
  constructor
  · rfl
  · intro d hd
    refine ⟨callsAt_body d [] d.body, fun c hc huser hcallee => ?_⟩
    have hsig : Signature.find? sigs c.name = some (signatureOf (evidence set) c.name) :=
      find?_infer hcallee
    refine ⟨_, hsig, ?_⟩
    rw [checkSite, huser, hsig, ← checkCall_eq]
    rfl

/-- A call of a button inside a card inside a conditional, with a wrong name, a repeated one and
one that is left out. -/
def buttonPage : Template :=
  ⟨"a", "a.html", [
    ⟨"a", true, .start, [],
      [.cond .start ⟨"x", .name 0 "x"⟩ [
        .invocation .start "Card" [.content .start "body" [
          .invocation ⟨2, 1⟩ "Button" [.text ⟨2, 9⟩ "txet" [], .text ⟨2, 18⟩ "text" [],
            .text ⟨2, 27⟩ "text" []]]]] none], "a.html", "a"⟩,
    ⟨"Button", false, .start, [],
      [.interpolation .start ⟨"text", .name 0 "text"⟩ none,
        .interpolation .start ⟨"onClick", .name 0 "onClick"⟩ none], "a.html", "a"⟩,
    ⟨"Card", false, .start, [],
      [.interpolation .start ⟨"body", .name 0 "body"⟩ none], "a.html", "a"⟩]⟩

theorem calls_checked_once_buttonPage :
    let set := (TagSet.build [buttonPage]).1
    ∃ d ∈ set.defs, ∃ c ∈ callSites d, Name.isBuiltin c.name = false ∧
      c.name ∈ set.defs.map (·.name) ∧
      (∃ sig, Signature.find? (infer set).1 c.name = some sig ∧
        checkSite (infer set).1 c = argReports sig c c.args ++
          (if unbound sig c.args = [] then [] else [missingArgs c (unbound sig c.args)])) ∧
      (checkSite (infer set).1 c).map (·.message) =
        ["<Button> has no parameter \"txet\"", "argument \"text\" of <Button> is bound more than once",
          "<Button> is missing required argument \"onClick\""] := by
  intro set
  have hdefs : set.defs = [buttonPage.defs[1], buttonPage.defs[2], buttonPage.defs[0]] := by cbv
  have hd : buttonPage.defs[0] ∈ set.defs := by rw [hdefs]; simp
  let c : CallSite := ⟨"a", "a.html", [], ⟨2, 1⟩, "Button",
    [.text ⟨2, 9⟩ "txet" [], .text ⟨2, 18⟩ "text" [], .text ⟨2, 27⟩ "text" []]⟩
  have hc : c ∈ callSites buttonPage.defs[0] := List.mem_cons_of_mem _ (List.mem_singleton_self _)
  have hcallee : c.name ∈ set.defs.map (·.name) := by rw [hdefs]; simp [c, buttonPage]
  have hinfer : infer set = infer ⟨[], set.defs, []⟩ := rfl
  refine ⟨_, hd, c, hc, by decide, hcallee, ?_, ?_⟩
  · exact ((calls_checked_once set).2 _ hd).2 c hc (by decide) hcallee
  · rw [hinfer, hdefs]
    decide +kernel

/-- A page that calls a tag by a name that belongs to the compiler, with a wrong argument. -/
def rawTemplates : List Template :=
  [⟨"a", "a.html", [⟨"a", true, .start, [],
      [.invocation .start "t:raw" [.text ⟨1, 8⟩ "value" [.literal ⟨1, 15⟩ "b"]]], "a.html", "a"⟩]⟩,
    ⟨"t:raw", "t:raw.html", [⟨"t:raw", true, .start, [],
      [.interpolation .start ⟨"x", .name 0 "x"⟩ none], "t:raw.html", "t:raw"⟩]⟩]

/-- A call by a name that belongs to the compiler is not checked against the signature of the tag of
that name. -/
theorem reserved_call_unchecked :
    let set := (TagSet.build rawTemplates).1
    Diagnostic.hasErrors (TagSet.build rawTemplates).2 = false ∧
      ∃ d ∈ set.defs, ∃ c ∈ callSites d, c.name ∈ set.defs.map (·.name) ∧
        ∃ sig, Signature.find? (infer set).1 c.name = some sig ∧
          argReports sig c c.args ≠ [] ∧ unbound sig c.args ≠ [] ∧ (infer set).2 = [] := by
  intro set
  have hbuild : Diagnostic.hasErrors (TagSet.build rawTemplates).2 = false := by cbv
  have hdefs : set.defs = rawTemplates.flatMap (·.defs) := by cbv
  have hevidence : evidence set = evidence ⟨[], set.defs, []⟩ := rfl
  have hinfer : infer set = infer ⟨[], set.defs, []⟩ := rfl
  let page : Definition := ⟨"a", true, .start, [],
    [.invocation .start "t:raw" [.text ⟨1, 8⟩ "value" [.literal ⟨1, 15⟩ "b"]]], "a.html", "a"⟩
  let c : CallSite :=
    ⟨"a", "a.html", [], .start, "t:raw", [.text ⟨1, 8⟩ "value" [.literal ⟨1, 15⟩ "b"]]⟩
  have hd : page ∈ set.defs := by rw [hdefs]; simp [rawTemplates, page]
  have hc : c ∈ callSites page := List.mem_singleton_self _
  have hcallee : c.name ∈ set.defs.map (·.name) := by rw [hdefs]; simp [rawTemplates, c]
  refine ⟨hbuild, page, hd, c, hc, hcallee, _, find?_infer hcallee, ?_, ?_, ?_⟩
  · rw [hevidence, hdefs]
    decide +kernel
  · rw [hevidence, hdefs]
    exact List.length_pos_iff.1 (by decide +kernel)
  · rw [hinfer, hdefs]
    decide +kernel

end Inference

end TagLoom

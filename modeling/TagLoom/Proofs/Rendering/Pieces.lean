import TagLoom.Proofs.Page.Failure
import TagLoom.Proofs.Rendering.Values

/-!
# Pieces of output

What a rendering emits, cut into the texts of literals and the escaped texts of values, in the order
in which they are emitted.  A rendering that nests too deep for its depth has the pieces that it
emits until it gets there.
-/

namespace TagLoom.Rendering

/-- A piece of output: the text of a literal, a value as it is written under an escape, or text that
is neither. -/
inductive Piece where
  | literal (text : Bytes)
  | value (escape : Escape) (text : Bytes)
  | foreign (text : Bytes)
deriving DecidableEq

def Piece.text : Piece → Bytes
  | .literal s | .value _ s | .foreign s => s

def spell (pieces : List Piece) : Bytes := pieces.flatMap Piece.text

/-! ## Values -/

abbrev BlockPieces := NodeBlock → Env NodeBlock → Page → List Piece

/-- The piece of a text, none on a page with an error. -/
def pieceOn (p : Page) (piece : Piece) : List Piece := if p.failure.isSome then [] else [piece]

def dataPieces (p : Page) (v : Value NodeBlock) (esc : Escape) : List Piece :=
  match v with
  | .nil | .noContent => []
  | v =>
      match v.text? with
      | some s => pieceOn p (.value esc (esc.apply s))
      | none => []

/-- What supplied markup brings to the sink. -/
def supplyPieces : Supply → Page → List Piece
  | .done, _ | .fail _, _ => []
  | .write text next, p =>
      match p.sink.write text with
      | .ok sink => .foreign text :: supplyPieces (next none) { p with sink }
      | .error message => supplyPieces (next (some message)) p
  | .ask next, p => supplyPieces (next p.cancelled) p

def contentPieces (run : BlockPieces) (p : Page) (content : Value NodeBlock) : List Piece :=
  match content with
  | .supplied _ s => if p.failure.isSome then [] else supplyPieces s p
  | .shown v => dataPieces p v .html
  | .block code env => if p.failure.isSome then [] else run code env p
  | _ => []

def valuePieces (run : BlockPieces) (p : Page) (v : Value NodeBlock) (esc : Escape) : List Piece :=
  if v.isRenderable then contentPieces run p v else dataPieces p v esc

/-! ## Nodes -/

variable [Language]

/-- What invoked tags and blocks emit. -/
structure Emitter where
  tag : Bytes → Env NodeBlock → Page → List Piece
  block : BlockPieces

def exprPieces (em : Emitter) (types : Types) (env : Env NodeBlock) (e : Expression) (esc : Escape)
    (p : Page) : List Piece :=
  let (v, p) := valueOf types env e p
  match typeOf types e with
  | .content => contentPieces em.block p v.asContent
  | .text => pieceOn p (.value esc (esc.apply v.toText))
  | _ => valuePieces em.block p v esc

def markdownPieces (p : Page) (v : Value NodeBlock) : List Piece :=
  match v with
  | .nil => []
  | v => pieceOn p (.foreign (Markdown.htmlWrites v.toText).flatten)

def sanitizedPieces (p : Page) (v : Value NodeBlock) (policy : Bytes) : List Piece :=
  match v with
  | .nil => []
  | v =>
      match if policy.isEmpty then some Policy.ugc else Policy.ofLabel? policy with
      | none => []
      | some rules => pieceOn p (.foreign (Sanitizer.sanitize rules v.toText))

def builtinPieces (em : Emitter) (types : Types) (env : Env NodeBlock) (b : Builtin)
    (args : List Arg) (p : Page) : List Piece :=
  let (v, p) := builtinValue types env args p
  match b.write with
  | .raw => valuePieces em.block p v .none
  | .markdown => markdownPieces p v
  | .sanitized => sanitizedPieces p v (b.staticArg args "policy")

def callPieces (bundle : Bundle) (em : Emitter) (types : Types) (env : Env NodeBlock) (name : Bytes)
    (args : List Arg) (p : Page) : List Piece :=
  match Builtin.find? name with
  | some b => builtinPieces em types env b args p
  | none =>
      let params := ((bundle.find? name).map (·.params)).getD []
      let (values, p) := arguments types env args params p
      em.tag name values p

/-- A step, and what comes after it unless the step left an error. -/
def onwards (stepped : Option Page) (next : Page → Option Page) : Option Page :=
  match stepped with
  | none => none
  | some p => thenUnlessFailed p next

def piecesAfter (stepped : Option Page) (next : Page → List Piece) : List Piece :=
  match stepped with
  | none => []
  | some p => if p.err?.isSome then [] else next p

def roundPieces {ε : Type} (round : ε → Page → Option Page) (pieces : ε → Page → List Piece) :
    List ε → Page → List Piece
  | [], _ => []
  | e :: es, p => pieces e p ++ piecesAfter (round e p) (roundPieces round pieces es)

mutual

def nodePieces (bundle : Bundle) (r : Runner) (em : Emitter) (types : Types) (env : Env NodeBlock) :
    Node → Page → List Piece
  | .literal _ s, _ => [.literal s]
  | .interpolation _ e esc, p => exprPieces em types env e (esc.getD .html) p
  | .invocation _ name args, p => callPieces bundle em types env name args p
  | .cond _ e body otherwise, p =>
      let (v, p) := valueOf types env e p
      if holds (typeOf types e) v then nodesPieces bundle r em types env [] body p
      else match otherwise with
        | some nodes => nodesPieces bundle r em types env [] nodes p
        | none => []
  | .loop _ e item index body, p =>
      let (v, p) := valueOf types env e p
      let (entries, p) := p.entries v
      roundPieces
        (fun entry p => renderNodes bundle r (types.withLoop item index)
          (bindRound env item index entry) [] body p)
        (fun entry p => nodesPieces bundle r em (types.withLoop item index)
          (bindRound env item index entry) [] body p)
        entries p

/-- What nodes emit after the text of literals that is not yet written. -/
def nodesPieces (bundle : Bundle) (r : Runner) (em : Emitter) (types : Types) (env : Env NodeBlock) :
    Bytes → List Node → Page → List Piece
  | _, [], _ => []
  | pending, .literal _ s :: rest, p =>
      .literal s :: nodesPieces bundle r em types env (pending ++ s) rest p
  | pending, n :: rest, p =>
      let p := p.raw pending
      if !pending.isEmpty && p.err?.isSome then []
      else nodePieces bundle r em types env n p ++
        piecesAfter (renderNode bundle r types env n p)
          (nodesPieces bundle r em types env [] rest)

end

end TagLoom.Rendering

namespace TagLoom.Bundle

open Rendering

variable [Language]

/-- What tags and blocks emit that nest at most so deep. -/
def emitter (b : Bundle) : Nat → Emitter
  | 0 => ⟨fun _ _ _ => [], fun _ _ _ => []⟩
  | n + 1 =>
      let r := b.runner n
      let em := b.emitter n
      { tag := fun name args p =>
          match b.find? name with
          | some t => nodesPieces b r em t.types args [] t.body p
          | none => []
        block := fun code env p => nodesPieces b r em code.types env [] code.nodes p }

def pieces (b : Bundle) (depth : Nat) (tag : Bytes) (model : Env NodeBlock) (p : Page) : List Piece :=
  match b.find? tag with
  | none => []
  | some t =>
      match bindParams model t.params p with
      | .error _ => []
      | .ok (args, p) => (b.emitter depth).tag t.name args p

end TagLoom.Bundle

namespace TagLoom.Rendering

open Page (Emits)

/-! ## The pieces are what reaches the sink -/

@[simp] theorem spell_nil : spell [] = [] := rfl

theorem spell_append (a b : List Piece) : spell (a ++ b) = spell a ++ spell b := List.flatMap_append

variable {p p' : Page}

theorem emits_pieceOn {piece : Piece} (h : p.failure = none → Emits p piece.text p')
    (hfailed : p.failure.isSome → p' = p) : Emits p (spell (pieceOn p piece)) p' := by
  cases hp : p.failure with
  | none => simpa [pieceOn, hp, spell] using h hp
  | some e =>
      rw [hfailed (by simp [hp])]
      exact .of_failure (by simp [hp]) _

theorem emits_dataPieces (p : Page) (v : Value NodeBlock) (esc : Escape) :
    Emits p (spell (dataPieces p v esc)) (p.writeData v esc) := by
  cases hp : p.failure with
  | some e =>
      rw [Page.writeData_of_failure (by simp [hp])]
      exact .of_failure (by simp [hp]) _
  | none =>
      by_cases hnil : v = .nil
      · subst hnil
        simp only [Page.writeData, hp]
        exact .refl p
      by_cases hcontent : v = .noContent
      · subst hcontent
        simp only [Page.writeData, hp]
        exact .refl p
      · rw [Page.writeData_of_ne_nil hp hnil hcontent, dataPieces]
        · cases v.text? with
          | none => exact Page.emits_fail p _ _
          | some s => exact emits_pieceOn (fun _ => Page.emits_raw p _) fun h => by simp [hp] at h
        · exact hnil
        · exact hcontent

theorem emits_supplyPieces (s : Supply) (p : Page) (hp : p.failure = none) :
    Emits p (spell (supplyPieces s p)) (p.supply s) := by
  induction s generalizing p with
  | done => exact .refl p
  | fail e => exact Page.emits_fail p _ _
  | write text next ih =>
      rw [Page.supply, supplyPieces, Sink.write]
      cases hrefusal : p.sink.refusal? p.sink.writes text with
      | some message => exact ih (some message) p hp
      | none =>
          have hwrite :
              Emits p text { p with sink := { p.sink with writes := p.sink.writes ++ [text] } } := by
            have hput := Page.emits_put p text .sink
            rw [Page.put, hp, Sink.write, hrefusal] at hput
            rwa [hp]
          exact hwrite.trans (ih none _ hp)
  | ask next ih => exact ih p.cancelled p hp

variable {r : Runner} {em : Emitter}

/-- The pieces of tags and blocks are what they bring to the sink. -/
structure RunnerEmits (r : Runner) (em : Emitter) : Prop where
  tag : ∀ name args p p', r.tag name args p = some p' → Emits p (spell (em.tag name args p)) p'
  block : ∀ code env p p', r.block code env p = some p' → Emits p (spell (em.block code env p)) p'

theorem emits_contentPieces (hr : RunnerEmits r em) (p : Page) (v : Value NodeBlock)
    (h : p.writeContent r.block v = some p') : Emits p (spell (contentPieces em.block p v)) p' := by
  cases hp : p.failure with
  | some e =>
      rw [Page.writeContent_of_failure (by simp [hp])] at h
      cases h
      exact .of_failure (by simp [hp]) _
  | none =>
      cases v with
      | supplied kind s =>
          simp only [Page.writeContent, hp] at h
          cases h
          simpa [contentPieces, hp] using emits_supplyPieces s p hp
      | shown v =>
          simp only [Page.writeContent, hp] at h
          cases h
          exact emits_dataPieces p v .html
      | block code env =>
          simp only [Page.writeContent, hp] at h
          obtain ⟨q, hq, heq⟩ := Option.map_eq_some_iff.1 h
          have hrun := hr.block code env p q hq
          have hpieces : contentPieces em.block p (.block code env) = em.block code env p := by
            simp [contentPieces, hp]
          rw [hpieces]
          subst heq
          split
          · simpa using hrun.trans (Page.emits_fail q _ [])
          · exact hrun
      | _ =>
          simp only [Page.writeContent, hp] at h
          cases h
          exact .refl _

theorem emits_valuePieces (hr : RunnerEmits r em) (p : Page) (v : Value NodeBlock) (esc : Escape)
    (h : p.writeValue r.block v esc = some p') :
    Emits p (spell (valuePieces em.block p v esc)) p' := by
  rw [Page.writeValue] at h
  rw [valuePieces]
  split
  · rename_i hv
    rw [if_pos hv] at h
    exact emits_contentPieces hr p v h
  · rename_i hv
    rw [if_neg hv] at h
    cases h
    exact emits_dataPieces p v esc

theorem emits_puts (p : Page) (texts : List Bytes) (refused : Bytes → RenderError) :
    Emits p texts.flatten (texts.foldl (fun p text => p.put text refused) p) := by
  induction texts generalizing p with
  | nil => exact .refl p
  | cons s texts ih => exact (Page.emits_put p s refused).trans (ih _)

theorem emits_markdownPieces (p : Page) (v : Value NodeBlock) :
    Emits p (spell (markdownPieces p v)) (p.writeMarkdown v) := by
  by_cases hnil : v = .nil
  · subst hnil
    exact .refl p
  · have hfailed (h : p.failure.isSome) : (Markdown.htmlWrites v.toText).foldl
        (fun p text => p.put text .markdown) p = p := by
      have hsame := Page.writeMarkdown_of_failure h v
      rwa [Page.writeMarkdown] at hsame
      exact hnil
    rw [markdownPieces, Page.writeMarkdown]
    · -- only the writes matter here, not the document they are of
      generalize Markdown.htmlWrites v.toText = texts at hfailed ⊢
      exact emits_pieceOn (fun _ => emits_puts p texts .markdown) hfailed
    · exact hnil
    · exact hnil

theorem emits_sanitizedPieces (p : Page) (v : Value NodeBlock) (policy : Bytes) :
    Emits p (spell (sanitizedPieces p v policy)) (p.writeSanitized v policy) := by
  cases hp : p.failure with
  | some e =>
      rw [Page.writeSanitized_of_failure (by simp [hp])]
      exact .of_failure (by simp [hp]) _
  | none =>
      by_cases hnil : v = .nil
      · subst hnil
        simp only [Page.writeSanitized, hp]
        exact .refl p
      · rw [Page.writeSanitized_of_ne_nil hp hnil, sanitizedPieces]
        · cases if policy.isEmpty then some Policy.ugc else Policy.ofLabel? policy with
          | none => exact Page.emits_fail p _ _
          | some rules =>
              exact emits_pieceOn (fun _ => Page.emits_raw p _) fun h => by simp [hp] at h
        · exact hnil

/-! ## Steps -/

theorem emits_piecesAfter {stepped : Option Page} {next : Page → Option Page}
    {pieces : Page → List Piece} {s : Bytes} (h : onwards stepped next = some p')
    (hstep : ∀ q, stepped = some q → Emits p s q)
    (hnext : ∀ q, next q = some p' → Emits q (spell (pieces q)) p') :
    Emits p (s ++ spell (piecesAfter stepped pieces)) p' := by
  cases stepped with
  | none => cases h
  | some q =>
      simp only [onwards, thenUnlessFailed] at h
      rw [piecesAfter]
      split at h
      · rename_i herr
        rw [if_pos herr, spell_nil, List.append_nil, ← Option.some.inj h]
        exact hstep q rfl
      · rename_i herr
        rw [if_neg herr]
        exact (hstep q rfl).trans (hnext q h)

theorem emits_roundPieces {ε : Type} {round : ε → Page → Option Page} {pieces : ε → Page → List Piece}
    (hround : ∀ e p p', round e p = some p' → Emits p (spell (pieces e p)) p') (es : List ε) (p : Page)
    (h : eachRound round es p = some p') : Emits p (spell (roundPieces round pieces es p)) p' := by
  induction es generalizing p with
  | nil =>
      cases h
      exact .refl _
  | cons e es ih =>
      rw [eachRound] at h
      rw [roundPieces, spell_append]
      exact emits_piecesAfter h (fun q hq => hround e p q hq) ih

/-! ## Expressions -/

variable [Language]

theorem emits_valueOf {β : Type} (types : Types) (env : Env β) (e : Expression) (p : Page) :
    Emits p [] (valueOf types env e p).2 := by
  rw [valueOf]
  split
  · exact .refl p
  · split
    · exact .refl p
    · exact Page.emits_evaluate p e _

theorem emits_textOf {β : Type} (types : Types) (env : Env β) (parts : List Part) (p : Page) :
    Emits p [] (textOf types env parts p).2 := by
  induction parts generalizing p with
  | nil => exact .refl p
  | cons part parts ih =>
      cases part with
      | literal pos s => exact ih p
      | interpolation pos e => exact (emits_valueOf types env e p).trans (ih _)

theorem emits_argument (types : Types) (env : Env NodeBlock) (args : List Arg) (param : Param)
    (p : Page) : Emits p [] (argument types env args param p).2 := by
  rw [argument]
  split
  · split
    · exact .refl p
    · exact emits_valueOf [] env _ p
  · exact .refl p
  · exact emits_textOf types env _ p
  · exact emits_valueOf types env _ p

theorem emits_arguments (types : Types) (env : Env NodeBlock) (args : List Arg) (params : List Param)
    (p : Page) : Emits p [] (arguments types env args params p).2 := by
  induction params generalizing p with
  | nil => exact .refl p
  | cons param params ih => exact (emits_argument types env args param p).trans (ih _)

theorem emits_builtinValue (types : Types) (env : Env NodeBlock) (args : List Arg) (p : Page) :
    Emits p [] (builtinValue types env args p).2 := by
  rw [builtinValue]
  split
  · exact emits_textOf types env _ p
  · exact emits_valueOf types env _ p
  · exact .refl p

/-! ## Nodes -/

theorem emits_exprPieces (hr : RunnerEmits r em) (types : Types) (env : Env NodeBlock)
    (e : Expression) (esc : Escape) (p : Page) (h : writeExpr r types env e esc p = some p') :
    Emits p (spell (exprPieces em types env e esc p)) p' := by
  have hvalue := emits_valueOf types env e p
  rw [writeExpr] at h
  rw [exprPieces]
  cases heq : valueOf types env e p with
  | mk v q =>
      rw [heq] at h hvalue
      refine hvalue.trans (t := spell _) ?_
      cases htype : typeOf types e with
      | content =>
          simp only [htype] at h ⊢
          exact emits_contentPieces hr q _ h
      | text =>
          simp only [htype, Option.some.injEq] at h ⊢
          subst h
          exact emits_pieceOn (fun _ => Page.emits_raw q _) fun hfailed => Page.raw_of_failure hfailed _
      | _ =>
          simp only [htype] at h ⊢
          exact emits_valuePieces hr q v esc h

theorem emits_builtinPieces (hr : RunnerEmits r em) (types : Types) (env : Env NodeBlock) (b : Builtin)
    (args : List Arg) (p : Page) (h : writeBuiltin r types env b args p = some p') :
    Emits p (spell (builtinPieces em types env b args p)) p' := by
  have hvalue := emits_builtinValue types env args p
  rw [writeBuiltin] at h
  rw [builtinPieces]
  cases heq : builtinValue types env args p with
  | mk v q =>
      rw [heq] at h hvalue
      refine hvalue.trans (t := spell _) ?_
      cases hwrite : b.write with
      | raw =>
          simp only [hwrite] at h ⊢
          exact emits_valuePieces hr q v .none h
      | markdown =>
          simp only [hwrite, Option.some.injEq] at h ⊢
          exact h ▸ emits_markdownPieces q v
      | sanitized =>
          simp only [hwrite, Option.some.injEq] at h ⊢
          exact h ▸ emits_sanitizedPieces q v _

theorem emits_callPieces (hr : RunnerEmits r em) (bundle : Bundle) (types : Types)
    (env : Env NodeBlock) (name : Bytes) (args : List Arg) (p : Page)
    (h : invoke bundle r types env name args p = some p') :
    Emits p (spell (callPieces bundle em types env name args p)) p' := by
  rw [invoke] at h
  rw [callPieces]
  cases hb : Builtin.find? name with
  | some b =>
      simp only [hb] at h ⊢
      exact emits_builtinPieces hr types env b args p h
  | none =>
      simp only [hb] at h ⊢
      exact (emits_arguments types env args _ p).trans (hr.tag name _ _ _ h)

mutual

theorem emits_nodePieces (hr : RunnerEmits r em) (bundle : Bundle) (types : Types) (env : Env NodeBlock)
    (n : Node) (p p' : Page) (h : renderNode bundle r types env n p = some p') :
    Emits p (spell (nodePieces bundle r em types env n p)) p' := by
  cases n with
  | literal pos s =>
      rw [renderNode] at h
      cases h
      simpa [nodePieces, spell, Piece.text] using Page.emits_raw p s
  | interpolation pos e esc =>
      rw [renderNode] at h
      rw [nodePieces]
      exact emits_exprPieces hr types env e _ p h
  | invocation pos name args =>
      rw [renderNode] at h
      rw [nodePieces]
      exact emits_callPieces hr bundle types env name args p h
  | cond pos e body otherwise =>
      rw [renderNode] at h
      rw [nodePieces]
      refine (emits_valueOf types env e p).trans (t := spell _) ?_
      cases hholds : holds (typeOf types e) (valueOf types env e p).1 with
      | true =>
          simp only [hholds, if_true] at h ⊢
          exact emits_nodesPieces hr bundle types env [] body _ p' h
      | false =>
          simp only [hholds, Bool.false_eq_true, if_false] at h ⊢
          cases otherwise with
          | none =>
              cases h
              exact .refl _
          | some nodes => exact emits_nodesPieces hr bundle types env [] nodes _ p' h
  | loop pos e item index body =>
      rw [renderNode] at h
      rw [nodePieces]
      refine (emits_valueOf types env e p).trans (t := spell _) ?_
      refine (Page.emits_entries _ (valueOf types env e p).1).trans (t := spell _) ?_
      exact emits_roundPieces
        (fun entry q q' hq => emits_nodesPieces hr bundle _ _ [] body q q' hq) _ _ h

theorem emits_nodesPieces (hr : RunnerEmits r em) (bundle : Bundle) (types : Types) (env : Env NodeBlock)
    (pending : Bytes) (ns : List Node) (p p' : Page)
    (h : renderNodes bundle r types env pending ns p = some p') :
    Emits p (pending ++ spell (nodesPieces bundle r em types env pending ns p)) p' := by
  cases ns with
  | nil =>
      rw [renderNodes] at h
      cases h
      simpa [nodesPieces] using Page.emits_raw p pending
  | cons n rest =>
      by_cases hliteral : ∃ pos s, n = .literal pos s
      · obtain ⟨pos, s, rfl⟩ := hliteral
        rw [renderNodes] at h
        rw [nodesPieces]
        have hrest := emits_nodesPieces hr bundle types env (pending ++ s) rest p p' h
        simpa [spell, Piece.text] using hrest
      · have hne : ∀ pos s, n ≠ .literal pos s := fun pos s heq => hliteral ⟨pos, s, heq⟩
        rw [renderNodes.eq_3 _ _ _ _ _ _ _ _ hne] at h
        rw [nodesPieces.eq_3 _ _ _ _ _ _ _ _ _ hne]
        refine (Page.emits_raw p pending).trans (t := spell _) ?_
        split at h
        · rename_i hstop
          rw [if_pos hstop, ← Option.some.inj h]
          exact .refl _
        · rename_i hstop
          rw [if_neg hstop, spell_append]
          exact emits_piecesAfter h (fun q hq => emits_nodePieces hr bundle types env n _ q hq)
            fun q hq => emits_nodesPieces hr bundle types env [] rest q p' hq

end

end TagLoom.Rendering

namespace TagLoom.Bundle

open Rendering
open Page (Emits)

variable [Language]

theorem runnerEmits (b : Bundle) (depth : Nat) : RunnerEmits (b.runner depth) (b.emitter depth) := by
  induction depth with
  | zero => exact ⟨fun _ _ _ _ h => (nomatch h), fun _ _ _ _ h => (nomatch h)⟩
  | succ n ih =>
      refine ⟨fun name args p p' h => ?_, fun code env p p' h => ?_⟩
      · rw [runner] at h
        rw [emitter]
        cases ht : b.find? name with
        | none =>
            simp only [ht] at h ⊢
            cases h
            exact .refl _
        | some t =>
            simp only [ht] at h ⊢
            exact emits_nodesPieces ih b t.types args [] t.body p p' h
      · exact emits_nodesPieces ih b code.types env [] code.nodes p p' h

/-! ## Models -/

theorem emits_bindParam {model : Env NodeBlock} {param : Param} {p p' : Page} {v : Value NodeBlock}
    (h : bindParam model param p = .ok (v, p')) : Emits p [] p' := by
  have hkeeps {α : Type} {x : Except RenderError α} {f : α → Value NodeBlock}
      (h : x.map (fun a => (f a, p)) = .ok (v, p')) : Emits p [] p' := by
    cases x with
    | error e => cases h
    | ok a =>
        cases h
        exact .refl _
  rw [bindParam] at h
  split at h
  · split at h <;> exact hkeeps h
  · have hdefault : Emits p [] (defaultValue param p).2 := by
      rw [defaultValue]
      split
      · exact emits_valueOf [] [] _ p
      · exact .refl p
    cases h
    exact hdefault

theorem emits_bindParams {model : Env NodeBlock} {params : List Param} {p : Page}
    {args : Env NodeBlock} {p' : Page} (h : bindParams model params p = .ok (args, p')) :
    Emits p [] p' := by
  induction params generalizing p args with
  | nil =>
      cases h
      exact .refl _
  | cons param params ih =>
      obtain ⟨v, q, rest, hparam, hrest, -⟩ := exists_of_bindParams_cons h
      exact (emits_bindParam hparam).trans (ih hrest)

theorem render_registryWithin (b : Bundle) (depth : Nat) (tag : Bytes) (model : Env NodeBlock)
    (p : Page) : (b.registryWithin depth).render tag model p =
      match b.find? tag with
      | none => some (p, some (.unknownTag tag))
      | some t => (b.body depth t model p).map fun (p, e) =>
          (p, (e.or p.err?).map (RenderError.inTag tag)) := by
  have hlookup : (b.registryWithin depth).lookup tag = (b.find? tag).map fun t =>
      ⟨t.name, t.params.map Param.formal, b.body depth t⟩ := by
    rw [TagRegistry.lookup, registryWithin, find?, List.find?_map]
    rfl
  rw [TagRegistry.render, hlookup]
  cases b.find? tag <;> rfl

/-- The pieces of a rendering are what it brings to the sink: as far as it gets, and as a whole when
there is no error. -/
theorem emits_pieces (b : Bundle) (depth : Nat) (tag : Bytes) (model : Env NodeBlock) (p : Page)
    {p' : Page} {e : Option RenderError}
    (h : (b.registryWithin depth).render tag model p = some (p', e)) :
    Emits p (spell (b.pieces depth tag model p)) p' := by
  rw [render_registryWithin] at h
  rw [pieces]
  cases ht : b.find? tag with
  | none =>
      rw [ht] at h
      cases h
      exact .refl _
  | some t =>
      simp only [ht, body] at h ⊢
      cases hbind : bindParams model t.params p with
      | error e =>
          rw [hbind] at h
          cases h
          exact .refl _
      | ok bound =>
          simp only [hbind, Option.map_map, Option.map_eq_some_iff] at h ⊢
          obtain ⟨q, hq, hresult⟩ := h
          cases hresult
          exact (emits_bindParams hbind).trans ((b.runnerEmits depth).tag _ _ _ _ hq)

end TagLoom.Bundle

import TagLoom.Code.Emit
import TagLoom.Page
import TagLoom.Rendering

/-!
# What generated code does

Generated code run statement by statement on a page.  Terms are evaluated from left to right; a
call returns its error at once, and everything else leaves its error on the page, where a function
finds it when it returns.

Functions may call each other without end, so running takes a depth: `Package.runner n` runs
whatever nests at most `n` calls and content closures, and gives nothing for the rest.
-/

namespace TagLoom.Code

/-- The code of a content closure, with the prepared expressions of the file it stands in. -/
structure Closure where
  programs : List Bytes
  body : List Stmt

/-- The files of a package and the file that binds their functions to models. -/
structure Package where
  files : List File
  registry : Registry

/-- How called functions and content closures are run.  A function gives the page and the error it
returns. -/
structure Runner where
  function : Bytes → List (Value Closure) → Page → Option (Page × Option RenderError)
  block : Page.RunBlock Closure

variable [Language]

/-! ## Terms -/

/-- The value of a prepared expression under the values of variables. -/
def evalProgram (programs : List Bytes) (i : Nat) (env : Env Closure) (p : Page) :
    Value Closure × Page :=
  match (programs[i]?).map Expression.ofSource with
  | some (.ok e) => p.evaluate e env
  | _ => (.nil, p)

/-- The names handed to a prepared expression, with the values of their variables. -/
def namedValues (env : Env Closure) : Option (List (Bytes × Bytes)) → Env Closure
  | none => []
  | some pairs => pairs.map fun (n, id) => (n, env.get id)

mutual

@[grind =]
def termValue (programs : List Bytes) (env : Env Closure) : Term → Page → Value Closure × Page
  | .name id, p => (env.get id, p)
  | .text s, p => (.text s, p)
  | .constant l, p => (l.toValue, p)
  | .eval i vars, p => evalProgram programs i (namedValues env vars) p
  | .toText t, p =>
      let (v, p) := termValue programs env t p
      (.text v.toText, p)
  | .concat parts, p =>
      let (vs, p) := termValues programs env parts p
      (.text (vs.flatMap Value.toText), p)
  | .textContent t, p | .asContent t, p =>
      let (v, p) := termValue programs env t p
      (v.asContent, p)
  | .block body, p => (.block ⟨programs, body⟩ env, p)

def termValues (programs : List Bytes) (env : Env Closure) :
    List Term → Page → List (Value Closure) × Page
  | [], p => ([], p)
  | t :: ts, p =>
      let (v, p) := termValue programs env t p
      let (vs, p) := termValues programs env ts p
      (v :: vs, p)

end

/-! ## Statements -/

def thenUnlessReturned (r : Option (Page × Option RenderError))
    (next : Page → Option (Page × Option RenderError)) : Option (Page × Option RenderError) :=
  match r with
  | some (p, none) => next p
  | r => r

/-- Runs a loop body for each entry. -/
def eachEntry {ε : Type} (round : ε → Page → Option (Page × Option RenderError)) :
    List ε → Page → Option (Page × Option RenderError)
  | [], p => some (p, none)
  | e :: es, p => thenUnlessReturned (round e p) (eachEntry round es)

def testHolds (onContent : Bool) (v : Value Closure) : Bool :=
  if onContent then
    match v with
    | .noContent => false
    | _ => true
  else v.isTruthy

/-- The variables of one round of a loop. -/
def bindEntry (env : Env Closure) (item : Bytes) (index : Option Bytes)
    (entry : Value Closure × Value Closure) : Env Closure :=
  (match index with
    | some id => [(id, entry.1)]
    | none => []) ++ (item, entry.2) :: env

def writeAs (r : Runner) (form : WriteForm) (v : Value Closure) (esc : Escape) (p : Page) :
    Option Page :=
  match form with
  | .block => p.writeContent r.block v
  | .text => some (p.writeText v.toText esc)
  | .value => p.writeValue r.block v esc

mutual

@[grind =] def runStmt (r : Runner) (programs : List Bytes) (env : Env Closure) :
    Stmt → Page → Option (Page × Option RenderError)
  | .raw s, p => some (p.raw s, none)
  | .write form t esc, p =>
      let (v, p) := termValue programs env t p
      (writeAs r form v esc p).map fun p => (p, none)
  | .markdown t, p =>
      let (v, p) := termValue programs env t p
      some (p.writeMarkdown v, none)
  | .sanitized t policy, p =>
      let (v, p) := termValue programs env t p
      some (p.writeSanitized v policy, none)
  | .call function args, p =>
      let (vs, p) := termValues programs env args p
      r.function function vs p
  | .branch onContent t yes no, p =>
      let (v, p) := termValue programs env t p
      if testHolds onContent v then runStmts r programs env yes p
      else match no with
        | some body => runStmts r programs env body p
        | none => some (p, none)
  | .each _ t item index body, p =>
      let (v, p) := termValue programs env t p
      let (entries, p) := p.entries v
      eachEntry (fun entry p => runStmts r programs (bindEntry env item index entry) body p) entries p

/-- Runs statements one after the other until one returns an error. -/
@[grind =] def runStmts (r : Runner) (programs : List Bytes) (env : Env Closure) :
    List Stmt → Page → Option (Page × Option RenderError)
  | [], p => some (p, none)
  | s :: ss, p => thenUnlessReturned (runStmt r programs env s p) (runStmts r programs env ss)

end

/-! ## Functions -/

/-- The body of a function or a closure: what it does not return early, it returns at its end. -/
def runBody (r : Runner) (programs : List Bytes) (env : Env Closure) (body : List Stmt) (p : Page) :
    Option (Page × Option RenderError) :=
  (runStmts r programs env body p).map fun (p, e) => (p, e.or p.err?)

namespace Package

def sources (pkg : Package) : List Bytes :=
  pkg.files.flatMap (·.programs) ++ pkg.registry.programs

/-- A function by name, with the prepared expressions of its file. -/
def function? (pkg : Package) (name : Bytes) : Option (List Bytes × Function) :=
  pkg.files.findSome? fun file =>
    (file.functions.find? (·.name == name)).map fun f => (file.programs, f)

/-- The variables of a function's parameters.  A parameter for content cannot hold plain nothing. -/
def bindArgs (params : List (Bytes × ParamType)) (args : List (Value Closure)) : Env Closure :=
  (params.zip args).map fun ((id, type), v) => (id, if type == .content then held v else v)
where
  held : Value Closure → Value Closure
    | .nil => .noContent
    | v => v

/-- Runs functions and closures that nest at most so deep.  The error of a closure is left on the
page. -/
def runner (pkg : Package) : Nat → Runner
  | 0 => ⟨fun _ _ _ => none, fun _ _ _ => none⟩
  | n + 1 =>
      let r := pkg.runner n
      { function := fun name args p =>
          match pkg.function? name with
          | some (programs, f) => runBody r programs (bindArgs f.params args) f.body p
          | none => none
        block := fun code env p =>
          (runBody r code.programs env code.body p).map fun (p, e) => e.elim p p.fail }

/-! ## The registry -/

/-- The value of a parameter: what the model has for it as the type asks, or the default. -/
def bindValue (pkg : Package) (model : Env Closure) (b : Binding) (p : Page) :
    Except RenderError (Value Closure × Page) :=
  if b.param.required || (model.get? b.param.name).isSome then
    match b.param.type with
    | .text => (model.requiredText b.param.name).map fun s => (.text s, p)
    | .content => (model.requiredContent b.param.name).map fun v => (v, p)
    | _ => (model.required b.param.name).map fun v => (v, p)
  else .ok (termValue pkg.registry.programs [] b.default p)

def bindValues (pkg : Package) (model : Env Closure) :
    List Binding → Page → Except RenderError (List (Value Closure) × Page)
  | [], p => .ok ([], p)
  | b :: bs, p => do
      let (v, p) ← pkg.bindValue model b p
      let (vs, p) ← pkg.bindValues model bs p
      return (v :: vs, p)

/-- The entry of a tag: binds its parameters from a model, then returns what its function does. -/
def entryBody (pkg : Package) (depth : Nat) (e : Entry) : TagBody Closure := fun model p =>
  match pkg.bindValues model e.bindings p with
  | .error error => some (p, some error)
  | .ok (args, p) => (pkg.runner depth).function e.function args p

/-- The tags as callers render them, nested at most so deep. -/
def registryWithin (pkg : Package) (depth : Nat) : TagRegistry Closure :=
  pkg.registry.entries.foldl (fun r e =>
    r.add ⟨e.tag, e.bindings.map (·.param.formal), pkg.entryBody depth e⟩) .empty

end Package

def Package.ofPass (set : TagSet) (sigs : List Signature) : Package :=
  ⟨(emit set sigs).1, (emit set sigs).2⟩

end TagLoom.Code

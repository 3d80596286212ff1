import TagLoom.Expr.Function
import TagLoom.Expr.Simplify
import TagLoom.Expr.Source

/-!
# Evaluating expressions

The value of a plan when its names have values.  `Expression.evaluate` checks, simplifies and
evaluates; a failure tells which part refused.

Pages are rendered with any `Language`, that is, with any evaluator.  The one of this library is an
instance; it leaves out some functions of the language, see `Expr.Function` and `Iteration`.
-/

namespace TagLoom.Plan

/-- Why an evaluation ends early: a part refuses its operands, or an optional member of nothing
ends the chain it stands in. -/
inductive Stop where
  | refusal (at_ : Expr.Located Refusal)
  | nothing

/-- What names mean: the values given from outside, local variables, and the items the enclosing
predicates are looking at, innermost first. -/
structure Scope (β : Type) where
  env : Env β
  locals : Env β
  items : List (Except Refusal (Value β) × Nat)

abbrev Evaluation (α : Type) := ExceptT Stop (StateM Nat) α

variable {β : Type}

def placed {α : Type} (pos : Nat) : Except Refusal α → Evaluation α
  | .ok v => pure v
  | .error e => throw (.refusal ⟨pos, e⟩)

/-- Items an evaluation may make room for, all its lists taken together. -/
def memoryBudget : Nat := 1000000

def makeRoom (pos : Nat) (count : Nat) : Evaluation Unit := do
  let used := (← get) + count
  set used
  if used ≥ memoryBudget then placed pos (.error .tooMuchMemory)

def listOf (pos : Nat) (items : List (Value β)) : Evaluation (Value β) := do
  makeRoom pos items.length
  return .list .values items

/-! ## Operations -/

def textTest (test : Bytes → Bytes → Bool) (a b : Value β) : Except Refusal Bool := do
  if a.isNothing || b.isNothing then return false
  let s ← a.asText
  let t ← b.asText
  return test s t

def matches_ (a b : Value β) : Except Refusal Bool := do
  if a.isNothing || b.isNothing then return false
  let source ← b.asText
  let s ← a.asSubject
  match Pattern.parse source with
  | .ok p => return p.isMatch s
  | .error e => throw (.pattern e.message)

/-- Equality of two values.  Where both are known to be whole numbers, or both texts, they have to
be. -/
def equals (l r : StaticType) (a b : Value β) : Except Refusal Bool :=
  match l, r with
  | .int, .int => do return (← a.asWord) == (← b.asWord)
  | .text, .text => do return (← a.asText) == (← b.asText)
  | _, _ => .ok (a.equal b)

def applyBinary (op : BinaryOp) (l r : StaticType) (a b : Value β) : Except Refusal (Value β) :=
  match op with
  | .equal => do return .bool (← equals l r a b)
  | .notEqual => do return .bool !(← equals l r a b)
  | .less => do return .bool (← a.less b)
  | .greater => do return .bool (← a.greater b)
  | .greaterEqual => do return .bool (← a.greaterEqual b)
  | .lessEqual => do return .bool (← a.lessEqual b)
  | .isIn => do return .bool (← a.isIn b)
  | .isMatch => do return .bool (← matches_ a b)
  | .hasPart => do return .bool (← textTest Bytes.includes a b)
  | .hasStart => do return .bool (← textTest Bytes.startsWith a b)
  | .hasEnd => do return .bool (← textTest Bytes.endsWith a b)
  | .add => a.add b
  | .subtract => a.subtract b
  | .multiply => a.multiply b
  | .divide => a.divide b
  | .modulo => a.modulo b
  | .power => a.power b
  | .or | .and | .coalesce | .range => .ok b

def applyUnary (op : UnaryOp) (v : Value β) : Except Refusal (Value β) :=
  match op with
  | .not => do return .bool !(← v.asBool)
  | .minus => v.negate
  | .plus => .ok v

/-- Calling a value: only supplied functions could be called, and never with these arguments. -/
def applyCall (callee : Value β) (args : List (Value β)) : Except Refusal (Value β) :=
  match callee with
  | .nil => .error .callOfNothing
  | .noContent => .error .callOfNoContent
  | v =>
      if v.isRenderable then
        match args with
        | [] => .error (.callArguments false)
        | [a] => .error (.callArgument a.typeName)
        | _ => .error (.callArguments true)
      else .error (.callOfValue v.typeName)

/-- Whether a value is in a set of whole numbers; nothing counts as zero. -/
def inInts (members : List Int) : Value β → Except Refusal Bool
  | .int .int n => .ok (members.contains n)
  | .nil => .ok (members.contains 0)
  | v => .error (.keyType v.typeName "int")

def inTexts (members : List Bytes) : Value β → Except Refusal Bool
  | .text s => .ok (members.contains s)
  | .nil => .ok (members.contains [])
  | v => .error (.keyType v.typeName "string")

/-- The entry that counts when a record names a key twice is the first. -/
def recordOf (entries : List (Bytes × Value β)) : List (Bytes × Value β) :=
  entries.foldl (fun acc e => if acc.any (·.1 == e.1) then acc else acc ++ [e]) []

/-- The texts of the keys of a record; the last key that is none is refused first. -/
def keyTexts : List (Value β × Value β) → Except Refusal (List (Bytes × Value β))
  | [] => .ok []
  | (k, v) :: es => do
      let rest ← keyTexts es
      let key ← k.asText
      return (key, v) :: rest

/-! ## Going through a collection -/

abbrev Item (β : Type) := Except Refusal (Value β)

def keepWhere {α : Type} (holds : Item β → Nat → Evaluation Bool)
    (kept : Item β → Nat → Evaluation α) : List (Item β) → Nat → Evaluation (List α)
  | [], _ => pure []
  | v :: vs, i => do
      if ← holds v i then
        let w ← kept v i
        return w :: (← keepWhere holds kept vs (i + 1))
      else keepWhere holds kept vs (i + 1)

def mapItems (f : Item β → Nat → Evaluation (Value β)) :
    List (Item β) → Nat → Evaluation (List (Value β))
  | [], _ => pure []
  | v :: vs, i => do
      let w ← f v i
      let rest ← mapItems f vs (i + 1)
      return w :: rest

def findItem (wanted : Bool) (holds : Item β → Nat → Evaluation Bool) :
    List (Item β) → Nat → Evaluation (Option (Item β × Nat))
  | [], _ => pure none
  | v :: vs, i => do
      if (← holds v i) == wanted then return some (v, i)
      findItem wanted holds vs (i + 1)

def findLastItem (holds : Item β → Nat → Evaluation Bool) (items : List (Item β)) :
    Evaluation (Option (Item β × Nat)) := do
  let count := items.length
  match ← findItem true (fun v i => holds v (count - 1 - i)) items.reverse 0 with
  | some (v, i) => return some (v, count - 1 - i)
  | none => return none

def sumItems (pos : Nat) (f : Item β → Nat → Evaluation (Value β)) :
    Value β → List (Item β) → Nat → Evaluation (Value β)
  | acc, [], _ => pure acc
  | acc, v :: vs, i => do
      let term ← f v i
      let acc ← placed pos (term.add acc)
      sumItems pos f acc vs (i + 1)

def addToGroup (key : Key) (item : Value β) : List (Key × List (Value β)) → List (Key × List (Value β))
  | [] => [(key, [item])]
  | (k, items) :: groups =>
      if k.same key then (k, items ++ [item]) :: groups
      else (k, items) :: addToGroup key item groups

def groupItems (pos : Nat) (keyOf : Item β → Nat → Evaluation (Value β)) :
    List (Key × List (Value β)) → List (Item β) → Nat → Evaluation (List (Key × List (Value β)))
  | groups, [], _ => pure groups
  | groups, v :: vs, i => do
      let key ← keyOf v i
      let item ← placed pos v
      let key ← placed pos (key.keyIn .groups)
      groupItems pos keyOf (addToGroup key item groups) vs (i + 1)

def tableOf (groups : List (Key × List (Value β))) : Value β :=
  .table .groups (groups.map fun (k, items) => (k, .list .values items))

/-- A function over the items of a collection.  `body` is what the predicate gives for an item and
`result` what is kept of it. -/
def iterate (fn : Iteration) (pos : Nat) (body result : Item β → Nat → Evaluation (Value β))
    (items : List (Item β)) : Evaluation (Value β) := do
  let holds (v : Item β) (i : Nat) : Evaluation Bool := do placed pos (← body v i).asBool
  let found (strict : Bool) : Option (Item β × Nat) → Evaluation (Value β)
    | some (v, i) => result v i
    | none => if strict then placed pos (.error .noMatch) else pure .nil
  let foundIndex : Option (Item β × Nat) → Value β
    | some (_, i) => .ofNat i
    | none => .nil
  let matching : Evaluation Nat := do
    return (← keepWhere holds (fun _ _ => pure ()) items 0).length
  match fn with
  | .filter => listOf pos (← keepWhere holds result items 0)
  | .map => listOf pos (← mapItems body items 0)
  | .all => return .bool (← findItem false holds items 0).isNone
  | .any => return .bool (← findItem true holds items 0).isSome
  | .none => return .bool (← findItem true holds items 0).isNone
  | .one => return .bool ((← matching) == 1)
  | .count => return .ofNat (← matching)
  | .sum => sumItems pos body (.ofInt 0) items 0
  | .find strict => found strict (← findItem true holds items 0)
  | .findLast strict => found strict (← findLastItem holds items)
  | .findIndex => return foundIndex (← findItem true holds items 0)
  | .findLastIndex => return foundIndex (← findLastItem holds items)
  | .groupBy => return tableOf (← groupItems pos body [] items 0)
  | .other f => placed pos (.error (.unavailable f))

/-! ## Evaluation -/

def lookup (scope : Scope β) (n : Bytes) : Value β :=
  match scope.locals.get? n with
  | some v => v
  | none => if n == Bytes.ofString "$env" then .record scope.env else scope.env.get n

def Scope.at_ (scope : Scope β) (item : Item β) (index : Nat) : Scope β :=
  { scope with items := (item, index) :: scope.items }

/-- The end of a chain: nothing found on the way, or at its end, is plainly nothing. -/
def endChain (e : Evaluation (Value β)) : Evaluation (Value β) :=
  tryCatch (do
    let v ← e
    return if v.isNothing then .nil else v) fun
    | .nothing => return .nil
    | stop => throw stop

mutual

@[grind =] def eval (scope : Scope β) : Plan → Evaluation (Value β)
  | .nil _ => return .nil
  | .bool _ b => return .bool b
  | .int _ n => return .ofInt n
  | .float _ f => return .float f
  | .text _ s => return .text s
  | .constants _ items => return .list .values (← evalList scope items)
  | .intSet n _ | .textSet n _ => placed n.pos (.error (.unavailable []))
  | .name _ s => return lookup scope s
  | .unary n op e => do placed n.pos (applyUnary op (← eval scope e))
  | .binary n op l r => do
      let a ← eval scope l
      match op, r with
      | .and, _ => if ← placed n.pos a.asBool then eval scope r else return .bool false
      | .or, _ => if ← placed n.pos a.asBool then return .bool true else eval scope r
      | .coalesce, _ => if a.isNothing then eval scope r else return a
      | .isIn, .intSet _ members => return .bool (← placed n.pos (inInts members a))
      | .isIn, .textSet _ members => return .bool (← placed n.pos (inTexts members a))
      | .range, _ =>
          let (first, count) ← placed n.pos (Value.rangeOf a (← eval scope r))
          makeRoom n.pos count
          return .consecutive first count
      | _, _ => placed n.pos (applyBinary op l.type r.type a (← eval scope r))
  | .chain _ e => endChain (eval scope e)
  | .member n e k optional => do
      let v ← eval scope e
      if optional && v.isNothing then throw .nothing
      placed n.pos (v.fetch (← eval scope k))
  | .slice n e low high => do
      let v ← eval scope e
      let b ←
        match high with
        | some h => eval scope h
        | none =>
            match v.length? with
            | some n => pure (.ofNat n)
            | none => placed n.pos (.error (.argument "len" v.typeName))
      let a ←
        match low with
        | some l => eval scope l
        | none => pure (.ofInt 0)
      placed n.pos (v.slice a b)
  | .call n callee args => do
      let vs ← evalList scope args
      placed n.pos (applyCall (← eval scope callee) vs)
  | .builtin n fn args => do placed n.pos (Expr.Function.apply fn (← evalList scope args))
  | .iteration n fn c body result => do
      let items ← placed n.pos (← eval scope c).iterated
      iterate fn n.pos (evalItem scope n.pos body) (evalItem scope n.pos result) items
  | .pointer n target =>
      match scope.items with
      | (v, i) :: _ => if target.isEmpty then placed n.pos v else return .ofNat i
      | [] => return .nil
  | .cond n c a b => do
      if ← placed n.pos (← eval scope c).asBool then eval scope a else eval scope b
  | .binding _ s v body => do
      let value ← eval scope v
      eval { scope with locals := (s, value) :: scope.locals } body
  | .sequence _ es => evalLast scope es
  | .array n es => do listOf n.pos (← evalList scope es)
  | .record n es => do
      let entries ← evalEntries scope es
      makeRoom n.pos entries.length
      return .record (recordOf (← placed n.pos (keyTexts entries)))

def evalList (scope : Scope β) : List Plan → Evaluation (List (Value β))
  | [] => return []
  | e :: es => do
      let v ← eval scope e
      let vs ← evalList scope es
      return v :: vs

def evalLast (scope : Scope β) : List Plan → Evaluation (Value β)
  | [] => return .nil
  | [e] => eval scope e
  | e :: es => do
      let _ ← eval scope e
      evalLast scope es

def evalEntries (scope : Scope β) : List (Plan × Plan) → Evaluation (List (Value β × Value β))
  | [] => return []
  | (k, v) :: es => do
      let key ← eval scope k
      let value ← eval scope v
      let rest ← evalEntries scope es
      return (key, value) :: rest

def evalItem (scope : Scope β) (pos : Nat) : Option Plan → Item β → Nat → Evaluation (Value β)
  | some p, v, i => eval (scope.at_ v i) p
  | none, v, _ => placed pos v

end

end TagLoom.Plan

namespace TagLoom

/-- Why an expression has no value: it has a flaw whatever its names hold, or a part of it refused
their values. -/
inductive EvalFailure where
  | flaw (source : Bytes) (at_ : Expr.Located Expr.Flaw)
  | refusal (source : Bytes) (at_ : Expr.Located Refusal)

namespace EvalFailure

def reason : EvalFailure → Bytes
  | .flaw source e => Expr.locate source e.pos (e.cause.message source e.pos)
  | .refusal source e => Expr.locate source e.pos e.cause.message

end EvalFailure

namespace Expression

def prepare (e : Expression) : Except EvalFailure Plan :=
  match e.tree.prepare with
  | .ok plan => .ok plan
  | .error f => .error (.flaw e.source f)

def evaluate {β : Type} (e : Expression) (env : Env β) : Except EvalFailure (Value β) := do
  let plan ← e.prepare
  match ((plan.eval ⟨env, [], []⟩).run.run 0).1 with
  | .ok v => return v
  | .error .nothing => return .nil
  | .error (.refusal r) => throw (.refusal e.source r)

end Expression

/-- A language of expressions: what is wrong with an expression whatever its names hold, and its
value under values for its names, or why it has none. -/
class Language where
  flaw? (e : Expression) : Option Bytes
  evaluate {β : Type} (e : Expression) (env : Env β) : Except Bytes (Value β)

instance : Language where
  flaw? e :=
    match e.prepare with
    | .ok _ => none
    | .error failure => some failure.reason
  evaluate e env := (e.evaluate env).mapError EvalFailure.reason

namespace Literal

def toValue {β : Type} : Literal → Value β
  | .nil => .nil
  | .bool b => .bool b
  | .int n => .ofInt n
  | .float f => .float f
  | .text s => .text s

end Literal

end TagLoom

import TagLoom.Expr.Parser
import TagLoom.Expr.Type

/-!
# Plans

A plan is an expression made ready to be evaluated.  Every node of it carries the character offset
that an error points at and what is known of its value, and functions that go through a collection
are told apart from those that take values only.
-/

namespace TagLoom

/-- What is known of a node of a plan: where it stands and the type of its value. -/
structure Note where
  pos : Nat
  type : StaticType
deriving Inhabited

/-- The functions that go through a collection.  A strict search fails when there is nothing to
find.  Left out are `sortBy` and `reduce`, which stay names. -/
inductive Iteration where
  | all
  | none
  | any
  | one
  | filter
  | map
  | count
  | sum
  | find (strict : Bool)
  | findLast (strict : Bool)
  | findIndex
  | findLastIndex
  | groupBy
  | other (name : Bytes)
deriving DecidableEq, Repr

namespace Iteration

def ofName (name : Bytes) : Iteration :=
  match name.toString? with
  | some "all" => .all
  | some "none" => .none
  | some "any" => .any
  | some "one" => .one
  | some "filter" => .filter
  | some "map" => .map
  | some "count" => .count
  | some "sum" => .sum
  | some "find" => .find false
  | some "findLast" => .findLast false
  | some "findIndex" => .findIndex
  | some "findLastIndex" => .findLastIndex
  | some "groupBy" => .groupBy
  | _ => .other name

end Iteration

inductive Plan where
  | nil (note : Note)
  | bool (note : Note) (value : Bool)
  | int (note : Note) (value : Int)
  | float (note : Note) (value : Float)
  | text (note : Note) (value : Bytes)
  /-- A list of constants, made once. -/
  | constants (note : Note) (items : List Plan)
  /-- A set of whole numbers to look a value up in. -/
  | intSet (note : Note) (members : List Int)
  /-- A set of texts to look a value up in. -/
  | textSet (note : Note) (members : List Bytes)
  | name (note : Note) (name : Bytes)
  | unary (note : Note) (op : UnaryOp) (operand : Plan)
  | binary (note : Note) (op : BinaryOp) (left right : Plan)
  | chain (note : Note) (link : Plan)
  | member (note : Note) (object key : Plan) (optional : Bool)
  | slice (note : Note) (object : Plan) (low high : Option Plan)
  | call (note : Note) (callee : Plan) (args : List Plan)
  | builtin (note : Note) (name : Bytes) (args : List Plan)
  /-- A function over a collection.  The body is what it asks of each item, by default the item
  itself; the result is what it keeps of an item, by default the item itself. -/
  | iteration (note : Note) (fn : Iteration) (collection : Plan) (body result : Option Plan)
  | pointer (note : Note) (target : Bytes)
  | cond (note : Note) (test yes no : Plan)
  | binding (note : Note) (name : Bytes) (value body : Plan)
  | sequence (note : Note) (steps : List Plan)
  | array (note : Note) (items : List Plan)
  | record (note : Note) (entries : List (Plan × Plan))
deriving Inhabited

namespace Plan

def note : Plan → Note
  | .nil n | .bool n _ | .int n _ | .float n _ | .text n _ | .constants n _ | .intSet n _
  | .textSet n _ | .name n _ | .unary n _ _ | .binary n _ _ _ | .chain n _ | .member n _ _ _
  | .slice n _ _ _ | .call n _ _ | .builtin n _ _ | .iteration n _ _ _ _ | .pointer n _
  | .cond n _ _ _ | .binding n _ _ _ | .sequence n _ | .array n _ | .record n _ => n

def pos (p : Plan) : Nat := p.note.pos

def type (p : Plan) : StaticType := p.note.type

def withNote (n : Note) : Plan → Plan
  | .nil _ => .nil n
  | .bool _ b => .bool n b
  | .int _ i => .int n i
  | .float _ f => .float n f
  | .text _ s => .text n s
  | .constants _ is => .constants n is
  | .intSet _ ms => .intSet n ms
  | .textSet _ ms => .textSet n ms
  | .name _ s => .name n s
  | .unary _ op e => .unary n op e
  | .binary _ op l r => .binary n op l r
  | .chain _ e => .chain n e
  | .member _ e k o => .member n e k o
  | .slice _ e l h => .slice n e l h
  | .call _ f as => .call n f as
  | .builtin _ f as => .builtin n f as
  | .iteration _ f c b r => .iteration n f c b r
  | .pointer _ t => .pointer n t
  | .cond _ c a b => .cond n c a b
  | .binding _ s v b => .binding n s v b
  | .sequence _ es => .sequence n es
  | .array _ es => .array n es
  | .record _ es => .record n es

def moveTo (pos : Nat) (p : Plan) : Plan := p.withNote ⟨pos, p.type⟩

/-- The collection and the body of a function over a collection, of its arguments. -/
def iterationOf (note : Note) (fn : Bytes) : List Plan → Plan
  | [c] => .iteration note (.ofName fn) c none none
  | c :: body :: _ => .iteration note (.ofName fn) c (some body) none
  | [] => .builtin note fn []

mutual

def ofExpr : Expr → Plan
  | .nil p => .nil ⟨p, .unknown⟩
  | .bool p b => .bool ⟨p, .unknown⟩ b
  | .int p n => .int ⟨p, .unknown⟩ n
  | .float p f => .float ⟨p, .unknown⟩ f
  | .text p s => .text ⟨p, .unknown⟩ s
  | .name p n => .name ⟨p, .unknown⟩ n
  | .unary p op e => .unary ⟨p, .unknown⟩ op (ofExpr e)
  | .binary p op l r => .binary ⟨p, .unknown⟩ op (ofExpr l) (ofExpr r)
  | .chain p e => .chain ⟨p, .unknown⟩ (ofExpr e)
  | .member p e k o => .member ⟨p, .unknown⟩ (ofExpr e) (ofExpr k) o
  | .slice p e l h => .slice ⟨p, .unknown⟩ (ofExpr e) (ofOption l) (ofOption h)
  | .call p f as => .call ⟨p, .unknown⟩ (ofExpr f) (ofList as)
  | .builtin p f as =>
      if Expr.Reading.predicateFunctions.any (·.1 == f) then iterationOf ⟨p, .unknown⟩ f (ofList as)
      else .builtin ⟨p, .unknown⟩ f (ofList as)
  | .predicate _ e => ofExpr e
  | .pointer p t => .pointer ⟨p, .unknown⟩ t
  | .cond p c a b => .cond ⟨p, .unknown⟩ (ofExpr c) (ofExpr a) (ofExpr b)
  | .binding p n v b => .binding ⟨p, .unknown⟩ n (ofExpr v) (ofExpr b)
  | .sequence p es => .sequence ⟨p, .unknown⟩ (ofList es)
  | .array p es => .array ⟨p, .unknown⟩ (ofList es)
  | .record p es => .record ⟨p, .unknown⟩ (ofEntries es)

def ofOption : Option Expr → Option Plan
  | none => none
  | some e => some (ofExpr e)

def ofList : List Expr → List Plan
  | [] => []
  | e :: es => ofExpr e :: ofList es

def ofEntries : List (Expr × Expr) → List (Plan × Plan)
  | [] => []
  | (k, v) :: es => (ofExpr k, ofExpr v) :: ofEntries es

end

/-! ## Sweeps -/

variable {ε : Type}

mutual

/-- Applies a rule to every node of a plan, parts before the whole. -/
def sweep (rule : Plan → Except ε Plan) : Plan → Except ε Plan
  | .nil n => rule (.nil n)
  | .bool n b => rule (.bool n b)
  | .int n i => rule (.int n i)
  | .float n f => rule (.float n f)
  | .text n s => rule (.text n s)
  | .constants n is => rule (.constants n is)
  | .intSet n ms => rule (.intSet n ms)
  | .textSet n ms => rule (.textSet n ms)
  | .name n s => rule (.name n s)
  | .pointer n t => rule (.pointer n t)
  | .unary n op e => do rule (.unary n op (← sweep rule e))
  | .binary n op l r => do
      let l ← sweep rule l
      let r ← sweep rule r
      rule (.binary n op l r)
  | .chain n e => do rule (.chain n (← sweep rule e))
  | .member n e k o => do
      let e ← sweep rule e
      let k ← sweep rule k
      rule (.member n e k o)
  | .slice n e l h => do
      let e ← sweep rule e
      let l ← sweepOption rule l
      let h ← sweepOption rule h
      rule (.slice n e l h)
  | .call n f as => do
      let f ← sweep rule f
      let as ← sweepList rule as
      rule (.call n f as)
  | .builtin n f as => do rule (.builtin n f (← sweepList rule as))
  | .iteration n f c b r => do
      let c ← sweep rule c
      let b ← sweepOption rule b
      let r ← sweepOption rule r
      rule (.iteration n f c b r)
  | .cond n c a b => do
      let c ← sweep rule c
      let a ← sweep rule a
      let b ← sweep rule b
      rule (.cond n c a b)
  | .binding n s v b => do
      let v ← sweep rule v
      let b ← sweep rule b
      rule (.binding n s v b)
  | .sequence n es => do rule (.sequence n (← sweepList rule es))
  | .array n es => do rule (.array n (← sweepList rule es))
  | .record n es => do rule (.record n (← sweepEntries rule es))

def sweepOption (rule : Plan → Except ε Plan) : Option Plan → Except ε (Option Plan)
  | none => .ok none
  | some p => do return some (← sweep rule p)

def sweepList (rule : Plan → Except ε Plan) : List Plan → Except ε (List Plan)
  | [] => .ok []
  | p :: ps => do
      let p ← sweep rule p
      let ps ← sweepList rule ps
      return p :: ps

def sweepEntries (rule : Plan → Except ε Plan) :
    List (Plan × Plan) → Except ε (List (Plan × Plan))
  | [] => .ok []
  | (k, v) :: es => do
      let k ← sweep rule k
      let v ← sweep rule v
      let es ← sweepEntries rule es
      return (k, v) :: es

end

/-! ## Comparing plans -/

mutual

/-- The nodes of a plan in order, without their notes: plans spelled the same do the same. -/
def spelled : Plan → List (String × Bytes)
  | .nil _ => [("nil", [])]
  | .bool _ b => [("bool", if b then "true" else "false")]
  | .int _ i => [("int", Bytes.ofInt i)]
  | .float _ f => [("float", Bytes.ofNat f.toBits.toNat)]
  | .text _ s => [("text", s)]
  | .constants _ is => ("constants", Bytes.ofNat is.length) :: spelledList is
  | .intSet _ ms => [("intSet", Bytes.join "," (ms.map Bytes.ofInt))]
  | .textSet _ ms => ("textSet", Bytes.ofNat ms.length) :: ms.map fun m => ("text", m)
  | .name _ s => [("name", s)]
  | .pointer _ t => [("pointer", t)]
  | .unary _ op e => (reprStr op, []) :: spelled e
  | .binary _ op l r => (reprStr op, []) :: (spelled l ++ spelled r)
  | .chain _ e => ("chain", []) :: spelled e
  | .member _ e k o => ("member", if o then "?" else "") :: (spelled e ++ spelled k)
  | .slice _ e l h => ("slice", []) :: (spelled e ++ spelledOption l ++ spelledOption h)
  | .call _ f as => ("call", Bytes.ofNat as.length) :: (spelled f ++ spelledList as)
  | .builtin _ f as => ("builtin", f) :: ("", Bytes.ofNat as.length) :: spelledList as
  | .iteration _ f c b r =>
      (reprStr f, []) :: (spelled c ++ spelledOption b ++ spelledOption r)
  | .cond _ c a b => ("cond", []) :: (spelled c ++ spelled a ++ spelled b)
  | .binding _ s v b => ("let", s) :: (spelled v ++ spelled b)
  | .sequence _ es => ("sequence", Bytes.ofNat es.length) :: spelledList es
  | .array _ es => ("array", Bytes.ofNat es.length) :: spelledList es
  | .record _ es => ("record", Bytes.ofNat es.length) :: spelledEntries es

def spelledOption : Option Plan → List (String × Bytes)
  | none => [("none", [])]
  | some p => ("some", []) :: spelled p

def spelledList : List Plan → List (String × Bytes)
  | [] => []
  | p :: ps => spelled p ++ spelledList ps

def spelledEntries : List (Plan × Plan) → List (String × Bytes)
  | [] => []
  | (k, v) :: es => spelled k ++ spelled v ++ spelledEntries es

end

mutual

/-- Whether a plan asks for the index of the item it is looking at, predicates inside it
included. -/
def readsIndex : Plan → Bool
  | .nil _ | .bool _ _ | .int _ _ | .float _ _ | .text _ _ | .intSet _ _ | .textSet _ _
  | .name _ _ | .constants _ _ => false
  | .pointer _ t => t == Bytes.ofString "index"
  | .unary _ _ e | .chain _ e => readsIndex e
  | .binary _ _ l r | .member _ l r _ | .binding _ _ l r => readsIndex l || readsIndex r
  | .slice _ e l h => readsIndex e || readsIndexOption l || readsIndexOption h
  | .call _ f as => readsIndex f || readsIndexList as
  | .builtin _ _ as => readsIndexList as
  | .iteration _ _ c b r => readsIndex c || readsIndexOption b || readsIndexOption r
  | .cond _ c a b => readsIndex c || readsIndex a || readsIndex b
  | .sequence _ es | .array _ es => readsIndexList es
  | .record _ es => readsIndexEntries es

def readsIndexOption : Option Plan → Bool
  | none => false
  | some p => readsIndex p

def readsIndexList : List Plan → Bool
  | [] => false
  | p :: ps => readsIndex p || readsIndexList ps

def readsIndexEntries : List (Plan × Plan) → Bool
  | [] => false
  | (k, v) :: es => readsIndex k || readsIndex v || readsIndexEntries es

end

end Plan

end TagLoom

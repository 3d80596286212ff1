import TagLoom.Bytes.Utf8
import TagLoom.Expr.Basic
import TagLoom.Expr.Plan
import TagLoom.Pattern.Reader

/-!
# Checking expressions

What can be told of an expression before the names in it have values.  Names may hold anything,
so only a clash between parts whose types are known is a flaw.  Checking an expression gives its
plan, in which every node carries its type.

## Places in expression sources

A message about an expression shows the line it is about and points at the character.
-/

namespace TagLoom.Expr

/-- Something said about the character at an offset. -/
structure Located (ε : Type) where
  pos : Nat
  cause : ε
deriving DecidableEq

def lineColumn (source : List Utf8.Cell) (pos : Nat) : Nat × Nat :=
  (source.take pos).foldl (fun (acc : Nat × Nat) c =>
    if c.rune == 10 then (acc.1 + 1, 0) else (acc.1, acc.2 + 1)) (1, 0)

def sourceLine (source : Bytes) (line : Nat) : Bytes :=
  ((Bytes.splitOn source "\n").drop (line - 1)).headD []

/-- A message with its place, the line it is about, and a mark under the character.  A message
about an empty line says no place. -/
def locate (source : Bytes) (pos : Nat) (message : Bytes) : Bytes :=
  let (line, column) := lineColumn (Utf8.cells source) pos
  let shown := sourceLine source line
  if shown.isEmpty then message
  else message ++ " (" ++ Bytes.ofNat line ++ ":" ++ Bytes.ofNat (column + 1) ++ ")" ++
    "\n | " ++ shown ++ "\n | " ++ Bytes.fill column '.'.toUInt8 ++ "^"

end TagLoom.Expr

/-! ## Flaws and plans -/

namespace TagLoom

namespace Expr

def unarySpellings : UnaryOp → List Bytes
  | .not => ["not", "!"]
  | .minus => ["-"]
  | .plus => ["+"]

def binarySpellings : BinaryOp → List Bytes
  | .or => ["or", "||"]
  | .and => ["and", "&&"]
  | .equal => ["=="]
  | .notEqual => ["!="]
  | .less => ["<"]
  | .greater => [">"]
  | .greaterEqual => [">="]
  | .lessEqual => ["<="]
  | .isIn => ["in"]
  | .isMatch => ["matches"]
  | .hasPart => ["contains"]
  | .hasStart => ["startsWith"]
  | .hasEnd => ["endsWith"]
  | .range => [".."]
  | .add => ["+"]
  | .subtract => ["-"]
  | .multiply => ["*"]
  | .divide => ["/"]
  | .modulo => ["%"]
  | .power => ["**", "^"]
  | .coalesce => ["??"]

def spelledAt (source : Bytes) (pos : Nat) (spellings : List Bytes) : Bytes :=
  let rest := Utf8.ofRunes ((Utf8.runes source).drop pos)
  (spellings.find? (Bytes.startsWith rest)).getD (spellings.headD [])

/-- What is wrong with an expression whatever its names hold. -/
inductive Flaw where
  | mismatched (op : BinaryOp) (left right : StaticType)
  | mismatchedOperand (op : UnaryOp) (operand : StaticType)
  | notInMap (needle key : StaticType)
  | notInList (needle item : StaticType)
  | badPattern (e : PatternError)
  | noFieldOfNil (name : Bytes)
  | noField (type : StaticType) (name : Bytes)
  | noMethod (type : StaticType) (name : Bytes)
  | noIndex (type index : StaticType)
  | badKey (key : StaticType)
  | badListIndex (index : StaticType)
  | cannotSlice (type : StaticType)
  | badSliceIndex (index : StaticType)
  | callOfNil (name : Bytes)
  | notCallable (type : StaticType)
  | notAList (function : Bytes) (type : StaticType)
  | notAPredicate (type : StaticType)
  | emptyPredicate
  | badArgument (function : Bytes) (type : StaticType)
  | argumentCount (given : Nat)
  | tooFewArguments (function : Bytes)
  | tooManyArguments (function : Bytes)
  | wrongArgument (function : Bytes) (given wanted : StaticType)
  | nilArgument (function : Bytes) (wanted : StaticType)
  | noItemOf (function : Bytes) (type : StaticType)
  | nonBoolCondition (type : StaticType)
  | redeclaredBuiltin (name : Bytes)
  | redeclaredVariable (name : Bytes)
  | loosePointer
  | unknownPointer (name : Bytes)
  | notAnArray
  | divisionByZero

def Flaw.message (source : Bytes) (pos : Nat) : Flaw → Bytes
  | .mismatched op l r => "invalid operation: " ++ spelledAt source pos (binarySpellings op) ++
      " (mismatched types " ++ l.label ++ " and " ++ r.label ++ ")"
  | .mismatchedOperand op t => "invalid operation: " ++ spelledAt source pos (unarySpellings op) ++
      " (mismatched type " ++ t.label ++ ")"
  | .notInMap t k => "cannot use " ++ t.label ++ " as type " ++ k.label ++ " in map key"
  | .notInList t i => "cannot use " ++ t.label ++ " as type " ++ i.label ++ " in array"
  | .badPattern e => e.message
  | .noFieldOfNil n => "type nil has no field " ++ n
  | .noField t n => "type " ++ t.label ++ " has no field " ++ n
  | .noMethod t n => "type " ++ t.label ++ " has no method " ++ n
  | .noIndex t i => "type " ++ t.label ++ "[" ++ i.label ++ "] is undefined"
  | .badKey k => "cannot use " ++ k.label ++ " to get an element from " ++ StaticType.record.label
  | .badListIndex i => "array elements can only be selected using an integer (got " ++ i.label ++ ")"
  | .cannotSlice t => "cannot slice " ++ t.label
  | .badSliceIndex t => "non-integer slice index " ++ t.label
  | .callOfNil n => n ++ " is nil; cannot call nil as function"
  | .notCallable t => t.label ++ " is not callable"
  | .notAList f t => "builtin " ++ f ++ " takes only array (got " ++ t.label ++ ")"
  | .notAPredicate t => "predicate should return boolean (got " ++ t.label ++ ")"
  | .emptyPredicate => "predicate should has one input and one output param"
  | .badArgument f t => "invalid argument for " ++ f ++ " (type " ++ t.label ++ ")"
  | .argumentCount n => "invalid number of arguments (expected 1, got " ++ Bytes.ofNat n ++ ")"
  | .tooFewArguments f => "not enough arguments to call " ++ f
  | .tooManyArguments f => "too many arguments to call " ++ f
  | .wrongArgument f g w => "cannot use " ++ g.label ++ " as argument (type " ++ w.label ++
      ") to call " ++ f ++ " "
  | .nilArgument f w => "cannot use nil as argument (type " ++ w.label ++ ") to call " ++ f
  | .noItemOf f t => "cannot get " ++ f ++ " element from " ++ t.label
  | .nonBoolCondition t => "non-bool expression (type " ++ t.label ++ ") used as condition"
  | .redeclaredBuiltin n => "cannot redeclare builtin " ++ n
  | .redeclaredVariable n => "cannot redeclare variable " ++ n
  | .loosePointer => "cannot use pointer accessor outside predicate"
  | .unknownPointer n => "unknown pointer #" ++ n
  | .notAnArray => "cannot use scope as array"
  | .divisionByZero => "integer divide by zero"

/-! ## Functions -/

def overloads? (name : Bytes) : Option (List (List StaticType) × StaticType) :=
  let anyList : StaticType := .list .any
  (([("string", ([[.any]], .text)),
    ("trim", ([[.text], [.text, .text]], .text)),
    ("trimPrefix", ([[.text, .text], [.text]], .text)),
    ("trimSuffix", ([[.text, .text], [.text]], .text)),
    ("upper", ([[.text]], .text)),
    ("lower", ([[.text]], .text)),
    ("split", ([[.text, .text], [.text, .text, .int]], .texts)),
    ("splitAfter", ([[.text, .text], [.text, .text, .int]], .texts)),
    ("replace", ([[.text, .text, .text, .int], [.text, .text, .text]], .text)),
    ("repeat", ([[.text, .int]], .text)),
    ("join", ([[.texts, .text], [anyList, .text], [anyList], [.texts]], .text)),
    ("indexOf", ([[.text, .text]], .int)),
    ("lastIndexOf", ([[.text, .text]], .int)),
    ("hasPrefix", ([[.text, .text]], .bool)),
    ("hasSuffix", ([[.text, .text]], .bool))] :
      List (String × List (List StaticType) × StaticType)).find?
        (fun e => Bytes.ofString e.1 == name)).map (·.2)

def functionLabel (name : Bytes) : Bytes :=
  match overloads? name with
  | some (first :: _, result) =>
      "func(" ++ Bytes.join ", " (first.map (·.label)) ++ ") " ++ result.label
  | _ => "func(...interface \x7b\x7d) (interface \x7b\x7d, error)"

def isFunctionName (name : Bytes) : Bool :=
  Reading.plainFunctions.contains name || (Reading.predicateFunctions.any fun f => f.1 == name)

/-! ## The checker -/

/-- The variables in scope and, for each enclosing predicate, the collection it goes through and
the further things it may point at. -/
structure CheckScope where
  bindings : List (Bytes × StaticType)
  predicates : List (StaticType × List (Bytes × StaticType))

abbrev Checked := Except (Located Flaw)

def flaw {α : Type} (pos : Nat) (f : Flaw) : Checked α := .error ⟨pos, f⟩

def binaryType? (op : BinaryOp) (l r : StaticType) : Option StaticType :=
  let number (result : StaticType) : Option StaticType :=
    if l.isNumber && r.isNumber then some result
    else if l.oneUnknown r (·.isNumber) then some .unknown else none
  match op with
  | .equal | .notEqual => if l.isComparable r then some .bool else none
  | .or | .and => if (l.isBool && r.isBool) || l.oneUnknown r (·.isBool) then some .bool else none
  | .less | .greater | .greaterEqual | .lessEqual =>
      if (l.isNumber && r.isNumber) || (l.isText && r.isText) ||
        l.oneUnknown r (fun t => t.isNumber || t.isText) then some .bool else none
  | .subtract | .multiply => number (l.combined r)
  | .divide | .power =>
      if (l.isNumber && r.isNumber) || l.oneUnknown r (·.isNumber) then some .float else none
  | .modulo => if (l.isInt && r.isInt) || l.oneUnknown r (·.isInt) then some .int else none
  | .add =>
      if l.isNumber && r.isNumber then some (l.combined r)
      else if l.isText && r.isText then some .text
      else if l.oneUnknown r (fun t => t.isNumber || t.isText) then some .unknown else none
  | .isMatch | .hasPart | .hasStart | .hasEnd =>
      if (l.isText && r.isText) || l.oneUnknown r (·.isText) then some .bool else none
  | .range =>
      if (l.isInt && r.isInt) || l.oneUnknown r (·.isInt) then some (.list .int) else none
  | .coalesce => some (r.eitherOf l)
  | .isIn =>
      if r.isUnknown then some .bool
      else if l.isUnknown && (r.isText || r.isList || r.isRecord) then some .bool
      else none

def checkBinary (pos : Nat) (op : BinaryOp) (l r : StaticType) : Checked StaticType :=
  if op == .isIn && r.isRecord then
    if l.isUnknown || l.fits .text then .ok .bool else flaw pos (.notInMap l .text)
  else if op == .isIn && r.isList then
    if l.isComparable r.item then .ok .bool else flaw pos (.notInList l r.item)
  else match binaryType? op l r with
    | some t => .ok t
    | none => flaw pos (.mismatched op l r)

def checkUnary (pos : Nat) (op : UnaryOp) (t : StaticType) : Checked StaticType :=
  if op == .not && (t.isBool || t.isUnknown) then .ok .bool
  else if op != .not && t.isNumber then .ok t
  else if op != .not && t.isUnknown then .ok .unknown
  else flaw pos (.mismatchedOperand op t)

def checkOverload (name : Bytes) (pos : Nat) (given : List (Nat × StaticType))
    (wanted : List StaticType) : Checked Unit :=
  if given.length > wanted.length then flaw pos (.tooManyArguments name)
  else if given.length < wanted.length then flaw pos (.tooFewArguments name)
  else (given.zip wanted).forM fun ((p, g), w) =>
    if g.isNil && !w.isUnknown then flaw p (.nilArgument name w)
    else if g.isUnknown || g.fits w then .ok ()
    else flaw p (.wrongArgument name g w)

/-- The result of a typed function: the first parameter list that the arguments fit decides,
and the last one is blamed when none does. -/
def checkOverloads (name : Bytes) (pos : Nat) (given : List (Nat × StaticType))
    (result : StaticType) : List (List StaticType) → Checked StaticType
  | [] => .ok result
  | [wanted] => (checkOverload name pos given wanted).map fun _ => result
  | wanted :: others =>
      match checkOverload name pos given wanted with
      | .ok _ => .ok result
      | .error _ => checkOverloads name pos given result others

def checkScalar (name : Bytes) (pos : Nat) (types : List StaticType) : Checked StaticType :=
  match types with
  | [t] =>
      if name == Bytes.ofString "len" then
        if t.isUnknown || t.isText || t.isList || t.isRecord then .ok .int
        else flaw pos (.badArgument name t)
      else if name == Bytes.ofString "abs" then
        if t.isUnknown then .ok .any
        else if t.isNumber then .ok t else flaw pos (.badArgument name t)
      else if name == Bytes.ofString "int" then
        if t.isUnknown || t.isNumber || t.isText then .ok .int else flaw pos (.badArgument name t)
      else if name == Bytes.ofString "float" then
        if t.isUnknown || t.isNumber || t.isText then .ok .float else flaw pos (.badArgument name t)
      else if t.isUnknown then .ok .any
      else if t.isList then .ok t.plain.item
      else flaw pos (.noItemOf name t)
  | _ => flaw pos (.argumentCount types.length)

def checkExtreme (name : Bytes) (pos : Nat) (first : Option StaticType) :
    List StaticType → Checked StaticType
  | [] =>
      match first with
      | some t => .ok t
      | none => flaw pos (.tooFewArguments name)
  | t :: types =>
      if t.isUnknown || t.isList then .ok .any
      else if t.isNumber then checkExtreme name pos (some (first.getD t)) types
      else flaw pos (.badArgument name t)

def scalarFunctions : List Bytes := ["len", "abs", "int", "float", "first", "last"]

def conditionFunctions : List Bytes := [
  "all", "none", "any", "one", "filter", "count", "find", "findIndex", "findLast", "findLastIndex"]

/-- What a function that goes through a collection gives, knowing the collection and what its
predicate gives. -/
def iterationType (fn : Iteration) (collection : StaticType) (body : Option StaticType) :
    StaticType :=
  match fn with
  | .filter => .list (if collection.isUnknown then .any else collection.item)
  | .map => .list (body.getD .unknown)
  | .sum =>
      match body with
      | some t => t.plain
      | none => if collection.isUnknown then .unknown else collection.item
  | .find _ | .findLast _ => if collection.isUnknown then .unknown else collection.item
  | .count | .findIndex | .findLastIndex => .int
  | .all | .none | .any | .one => .bool
  | .groupBy | .other _ => .unknown

def pointersOf (fn : Iteration) : List (Bytes × StaticType) :=
  match fn with
  | .map => [("index", .int)]
  | .other f => if f == Bytes.ofString "reduce" then [("acc", .unknown), ("index", .int)] else []
  | _ => []

/-- The type of a call whose arguments are known, predicates apart. -/
def checkFunction (name : Bytes) (pos : Nat) (given : List (Nat × StaticType)) :
    Checked StaticType :=
  match overloads? name with
  | some (lists, result) => checkOverloads name pos given result lists
  | none =>
      if scalarFunctions.contains name then checkScalar name pos (given.map (·.2))
      else if name == Bytes.ofString "min" || name == Bytes.ofString "max" then
        checkExtreme name pos none (given.map (·.2))
      else .ok .unknown

def checkMember (pos : Nat) (base : StaticType) (key : Expr) (keyType : StaticType) (method : Bool) :
    Checked StaticType :=
  match base, key with
  | .unknown, _ | .any, _ => .ok .unknown
  | .nil, .text _ field => flaw pos (.noFieldOfNil field)
  | .record, _ =>
      if keyType.isText || keyType.isUnknown then .ok .any else flaw key.pos (.badKey keyType)
  | .list t, _ =>
      if keyType.isInt || keyType.isUnknown then .ok t else flaw key.pos (.badListIndex keyType)
  | .texts, _ =>
      if keyType.isInt || keyType.isUnknown then .ok .text else flaw key.pos (.badListIndex keyType)
  | _, .text _ field => flaw pos (if method then .noMethod base field else .noField base field)
  | _, _ => flaw pos (.noIndex base keyType)

def calleeName : Expr → Bytes
  | .name _ n => n
  | .member _ _ (.text _ n) _ => n
  | _ => "function"

def isWholeEnv : Expr → Bool
  | .name _ n => n == Bytes.ofString "$env"
  | _ => false

def placedTypes (ps : List Plan) : List (Nat × StaticType) := ps.map fun p => (p.pos, p.type)

/-- The type of a list with some items: when all are of one sort, they are taken to be like the
last. -/
def arrayType : List StaticType → StaticType
  | [] => .list .unknown
  | t :: rest =>
      .list (if rest.all (fun u => u.sort == t.sort) then rest.getLast?.getD t else .any)

def checkBound : Option Plan → Checked Unit
  | none => .ok ()
  | some p =>
      if p.type.isInt || p.type.isUnknown then .ok () else flaw p.pos (.badSliceIndex p.type)

mutual

/-- The plan of an expression.  Where nothing is known of a value, neither the arguments it is
called with nor the bounds it is cut at are looked at. -/
def check (scope : CheckScope) : Expr → Checked Plan
  | .nil pos => .ok (.nil ⟨pos, .nil⟩)
  | .bool pos b => .ok (.bool ⟨pos, .bool⟩ b)
  | .int pos n => .ok (.int ⟨pos, .int⟩ n)
  | .float pos f => .ok (.float ⟨pos, .float⟩ f)
  | .text pos s => .ok (.text ⟨pos, .text⟩ s)
  | .name pos n =>
      match scope.bindings.find? (·.1 == n) with
      | some (_, t) => .ok (.name ⟨pos, t⟩ n)
      | none =>
          .ok (.name ⟨pos, if isFunctionName n then .function (functionLabel n) else .unknown⟩ n)
  | .unary pos op e => do
      let p ← check scope e
      return .unary ⟨pos, ← checkUnary pos op p.type⟩ op p
  | .binary pos op l r => do
      let lp ← check scope l
      let rp ← check scope r
      match op, r with
      | .isMatch, .text _ source =>
          match Pattern.parse source with
          | .error e => flaw pos (.badPattern e)
          | .ok _ => return .binary ⟨pos, ← checkBinary pos op lp.type rp.type⟩ op lp rp
      | _, _ => return .binary ⟨pos, ← checkBinary pos op lp.type rp.type⟩ op lp rp
  | .chain pos e => do
      let p ← check scope e
      return .chain ⟨pos, p.type⟩ p
  | .member pos e k optional => do
      if isWholeEnv e then return .member ⟨pos, .unknown⟩ (.ofExpr e) (.ofExpr k) optional
      let base ← check scope e
      let key ← check scope k
      return .member ⟨pos, ← checkMember pos base.type k key.type false⟩ base key optional
  | .slice pos e low high => do
      let p ← check scope e
      if p.type.isUnknown then
        return .slice ⟨pos, .unknown⟩ p (Plan.ofOption low) (Plan.ofOption high)
      if !(p.type.isText || p.type.isList) then flaw pos (.cannotSlice p.type)
      let lowPlan ← checkOption scope low
      checkBound lowPlan
      let highPlan ← checkOption scope high
      checkBound highPlan
      return .slice ⟨pos, p.type⟩ p lowPlan highPlan
  | .call pos (.member at_ e k optional) args => do
      if isWholeEnv e then
        return .call ⟨pos, .unknown⟩ (.member ⟨at_, .unknown⟩ (.ofExpr e) (.ofExpr k) optional)
          (Plan.ofList args)
      let base ← check scope e
      let key ← check scope k
      let t ← checkMember at_ base.type k key.type true
      let callee := Plan.member ⟨at_, t⟩ base key optional
      if t.isUnknown then return .call ⟨pos, .unknown⟩ callee (Plan.ofList args)
      if t.isNil then flaw pos (.callOfNil (calleeName (.member at_ e k optional)))
      flaw pos (.notCallable t)
  | .call pos callee args => do
      let p ← check scope callee
      match p.type with
      | .unknown | .any => return .call ⟨pos, .unknown⟩ p (Plan.ofList args)
      | .nil => flaw pos (.callOfNil (calleeName callee))
      | .function _ => do
          let given ← checkAll scope args
          return .call ⟨pos, ← checkFunction (calleeName callee) pos (placedTypes given)⟩ p given
      | _ => flaw pos (.notCallable p.type)
  | .builtin pos fn args =>
      if Reading.predicateFunctions.any (·.1 == fn) then checkIteration scope pos fn args
      else do
        let given ← checkAll scope args
        return .builtin ⟨pos, ← checkFunction fn pos (placedTypes given)⟩ fn given
  | .predicate _ e => check scope e
  | .pointer pos target =>
      match scope.predicates with
      | [] => flaw pos .loosePointer
      | (collection, vars) :: _ =>
          if target.isEmpty then
            if collection.isUnknown then .ok (.pointer ⟨pos, .unknown⟩ target)
            else if collection.isList then .ok (.pointer ⟨pos, collection.item⟩ target)
            else flaw pos .notAnArray
          else match vars.find? (·.1 == target) with
            | some (_, t) => .ok (.pointer ⟨pos, t⟩ target)
            | none => flaw pos (.unknownPointer target)
  | .cond pos c a b => do
      let test ← check scope c
      if !(test.type.isBool || test.type.isUnknown) then flaw c.pos (.nonBoolCondition test.type)
      let yes ← check scope a
      let no ← check scope b
      return .cond ⟨pos, yes.type.eitherOf no.type⟩ test yes no
  | .binding pos bound value body => do
      if isFunctionName bound then flaw pos (.redeclaredBuiltin bound)
      if scope.bindings.any (·.1 == bound) then flaw pos (.redeclaredVariable bound)
      let v ← check scope value
      let b ← check { scope with bindings := (bound, v.type) :: scope.bindings } body
      return .binding ⟨pos, b.type⟩ bound v b
  | .sequence pos steps => do
      let ps ← checkAll scope steps
      return .sequence ⟨pos, (ps.getLast?.map (·.type)).getD .unknown⟩ ps
  | .array pos items => do
      let ps ← checkAll scope items
      return .array ⟨pos, arrayType (ps.map (·.type))⟩ ps
  | .record pos entries => do return .record ⟨pos, .record⟩ (← checkEntries scope entries)

def checkOption (scope : CheckScope) : Option Expr → Checked (Option Plan)
  | none => .ok none
  | some e => do return some (← check scope e)

def checkAll (scope : CheckScope) : List Expr → Checked (List Plan)
  | [] => .ok []
  | e :: es => do
      let p ← check scope e
      let rest ← checkAll scope es
      return p :: rest

def checkEntries (scope : CheckScope) : List (Expr × Expr) → Checked (List (Plan × Plan))
  | [] => .ok []
  | (k, v) :: entries => do
      let key ← check scope k
      let value ← check scope v
      let rest ← checkEntries scope entries
      return (key, value) :: rest

def checkIteration (scope : CheckScope) (pos : Nat) (name : Bytes) : List Expr → Checked Plan
  | [] => flaw pos (.tooFewArguments name)
  | [collection] => do
      let fn := Iteration.ofName name
      let c ← check scope collection
      if !(c.type.isList || c.type.isUnknown) then flaw collection.pos (.notAList name c.type)
      return .iteration ⟨pos, iterationType fn c.type none⟩ fn c none none
  | collection :: body :: _ => do
      let fn := Iteration.ofName name
      let c ← check scope collection
      if !(c.type.isList || c.type.isUnknown) then flaw collection.pos (.notAList name c.type)
      let b ← check { scope with predicates := (c.type, pointersOf fn) :: scope.predicates } body
      if b.type.isNil then flaw body.pos .emptyPredicate
      if conditionFunctions.contains name && !(b.type.isBool || b.type.isUnknown) then
        flaw body.pos (.notAPredicate b.type)
      return .iteration ⟨pos, iterationType fn c.type (some b.type)⟩ fn c (some b) none

end

end Expr

end TagLoom

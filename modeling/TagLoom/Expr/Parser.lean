import TagLoom.Expr.Basic
import TagLoom.Expr.Token

/-!
# Reading expressions

A precedence parser over the tokens of an expression.  The first fault is kept and the
reader runs on without building anything; a source that stops being tokens replaces an
earlier fault, because the reader meets it later while it unwinds.

Every function takes a bound on its depth.  Each nested call follows at least one
consumed token, so a multiple of the token count is always enough.
-/

namespace TagLoom.Expr.Reading

inductive ParseError where
  | lexical (e : LexError)
  | unexpected (t : Token)
  | endOfSource
  | expectedName
  | mixedCoalesce (op : Bytes)
  | fewArguments (n : Nat)
  | badNumber (kind reader word : Bytes) (e : Decimal.ReadError)
  | badKey (t : Token)
  | bareSequence
  | tooManyNodes
deriving DecidableEq

def ParseError.message : ParseError → Bytes
  | .lexical e => e.message
  | .unexpected t => "unexpected token " ++ t.describe
  | .endOfSource => "unexpected end of expression"
  | .expectedName => "expected name"
  | .mixedCoalesce op => "Operator (" ++ op ++ ") and coalesce expressions (??) cannot be mixed. " ++
      "Wrap either by parentheses."
  | .fewArguments n => "expected at least " ++ Bytes.ofNat n ++ " arguments"
  | .badNumber kind reader word e => "invalid " ++ kind ++ " literal: strconv." ++ reader ++
      ": parsing " ++ Bytes.quote word ++ ": " ++ e.message
  | .badKey t => "a map key must be a quoted string, a number, a identifier, or an expression " ++
      "enclosed in parentheses (unexpected token " ++ t.describe ++ ")"
  | .bareSequence => "wrap predicate with brackets \x7b and \x7d"
  | .tooManyNodes => "compilation failed: expression exceeds maximum allowed nodes"

/-! ## Operators -/

def unaryOp? (word : Bytes) : Option (UnaryOp × Nat) :=
  if word == Bytes.ofString "not" || word == Bytes.ofString "!" then some (.not, 50)
  else if word == Bytes.ofString "-" then some (.minus, 90)
  else if word == Bytes.ofString "+" then some (.plus, 90)
  else none

/-- The infix operators, each with its precedence.  Only powers group to the right. -/
def infixOps : List (Bytes × BinaryOp × Nat) := [
  ("or", .or, 10), ("||", .or, 10), ("and", .and, 15), ("&&", .and, 15),
  ("==", .equal, 20), ("!=", .notEqual, 20), ("<", .less, 20), (">", .greater, 20),
  (">=", .greaterEqual, 20), ("<=", .lessEqual, 20), ("in", .isIn, 20),
  ("matches", .isMatch, 20), ("contains", .hasPart, 20), ("startsWith", .hasStart, 20),
  ("endsWith", .hasEnd, 20), ("..", .range, 25), ("+", .add, 30), ("-", .subtract, 30),
  ("*", .multiply, 60), ("/", .divide, 60), ("%", .modulo, 60), ("**", .power, 100),
  ("^", .power, 100), ("??", .coalesce, 500)]

def binaryOp? (word : Bytes) : Option (BinaryOp × Nat) :=
  (infixOps.find? (·.1 == word)).map (·.2)

def precedence? (word : Bytes) : Option Nat :=
  if word == Bytes.ofString "|" then some 0 else (binaryOp? word).map (·.2)

def isComparison (word : Bytes) : Bool :=
  match binaryOp? word with
  | some (op, _) => [BinaryOp.less, .greater, .greaterEqual, .lessEqual].contains op
  | none => false

def isNegatable (word : Bytes) : Bool :=
  match binaryOp? word with
  | some (op, _) => [BinaryOp.hasPart, .isMatch, .hasStart, .hasEnd, .isIn].contains op
  | none => false

/-! ## Functions of the language -/

/-- What a function that takes a predicate expects at each place. -/
inductive ArgSort where
  | value
  | predicate
  | optionalValue
  | optionalPredicate
deriving DecidableEq

def ArgSort.isOptional : ArgSort → Bool
  | .optionalValue | .optionalPredicate => true
  | _ => false

def ArgSort.isPredicate : ArgSort → Bool
  | .predicate | .optionalPredicate => true
  | _ => false

def predicateFunctions : List (Bytes × List ArgSort) := [
  ("all", [.value, .predicate]), ("none", [.value, .predicate]), ("any", [.value, .predicate]),
  ("one", [.value, .predicate]), ("filter", [.value, .predicate]), ("map", [.value, .predicate]),
  ("count", [.value, .optionalPredicate]), ("sum", [.value, .optionalPredicate]),
  ("find", [.value, .predicate]), ("findIndex", [.value, .predicate]),
  ("findLast", [.value, .predicate]), ("findLastIndex", [.value, .predicate]),
  ("groupBy", [.value, .predicate]), ("sortBy", [.value, .predicate, .optionalValue]),
  ("reduce", [.value, .predicate, .optionalValue])]

def plainFunctions : List Bytes := ([
  "len", "type", "abs", "ceil", "floor", "round", "int", "float", "string", "trim",
  "trimPrefix", "trimSuffix", "upper", "lower", "split", "splitAfter", "replace", "repeat",
  "join", "indexOf", "lastIndexOf", "hasPrefix", "hasSuffix", "max", "min", "mean", "median",
  "toJSON", "fromJSON", "toBase64", "fromBase64", "now", "duration", "date", "timezone",
  "first", "last", "get", "take", "keys", "values", "toPairs", "fromPairs", "reverse", "uniq",
  "concat", "flatten", "sort", "bitand", "bitor", "bitxor", "bitnand", "bitnot", "bitshl",
  "bitshr", "bitushr"] : List String).map Bytes.ofString

/-! ## The state of the reader -/

/-- The token being looked at, the tokens after it, the first fault, how many
predicates enclose this place and how many nodes were built. -/
structure ReadState where
  current : Token
  rest : List Token
  failure : Option LexError
  fault : Option ParseError
  depth : Nat
  nodes : Nat

abbrev Reader := StateM ReadState

namespace Reader

def maxNodes : Nat := 10000

def faulty : Reader Bool := return (← get).fault.isSome

def current : Reader Token := return (← get).current

def fail (e : ParseError) : Reader Unit :=
  modify fun st => { st with fault := st.fault <|> some e }

def next : Reader Unit :=
  modify fun st =>
    match st.rest with
    | t :: rest => { st with current := t, rest := rest }
    | [] =>
        match st.failure with
        | some e => { st with fault := some (.lexical e) }
        | none => { st with fault := st.fault <|> some .endOfSource }

def isAt (kind : TokenKind) (value : Bytes) : Reader Bool := do
  let t ← current
  return t.kind == kind && t.value == value

def atOperator (value : Bytes) : Reader Bool := isAt .operator value

def atBracket (value : Bytes) : Reader Bool := isAt .bracket value

def failHere : Reader Unit := do fail (.unexpected (← current))

def expect (kind : TokenKind) (value : Bytes) : Reader Unit := do
  if ← isAt kind value then next else failHere

def expectOperator (value : Bytes) : Reader Unit := expect .operator value

def expectBracket (value : Bytes) : Reader Unit := expect .bracket value

def expectName : Reader Unit := do
  if (← current).kind == .name then next else failHere

def node (e : Expr) : Reader Expr := do
  modify fun st => { st with nodes := st.nodes + 1 }
  if (← get).nodes > maxNodes then fail .tooManyNodes
  return e

end Reader

open Reader

def absent : Expr := .nil 0

def numberNode (t : Token) : Except ParseError Expr :=
  let value := t.value.filter (· != '_'.toUInt8)
  let lower := Bytes.lowerAscii value
  let int (kind : Bytes) (r : Except Decimal.ReadError Int) : Except ParseError Expr :=
    match r with
    | .ok n => .ok (.int t.start n)
    | .error e => .error (.badNumber kind "ParseInt" value e)
  if Bytes.startsWith lower "0x" then int "hex" (Decimal.readPrefixedInt value)
  else if lower.any fun c => c == '.'.toUInt8 || c == 'e'.toUInt8 then
    match Decimal.readFloat value with
    | .ok f => .ok (.float t.start f)
    | .error e => .error (.badNumber "float" "ParseFloat" value e)
  else if Bytes.startsWith lower "0b" then int "binary" (Decimal.readPrefixedInt value)
  else if Bytes.startsWith lower "0o" then int "octal" (Decimal.readPrefixedInt value)
  else int "integer" (Decimal.readInt 10 value)

mutual

/-- Expressions separated by semicolons; a trailing semicolon is allowed. -/
def sequence : Nat → Reader Expr
  | 0 => return absent
  | fuel + 1 => do
      let first ← expression fuel 0
      let more ← moreSteps fuel
      if ← faulty then return absent
      match more with
      | [] => return first
      | _ => node (.sequence first.pos (first :: more))

def moreSteps : Nat → Reader (List Expr)
  | 0 => return []
  | fuel + 1 => do
      if (← atOperator ";") && !(← faulty) then
        next
        if (← current).kind == .eof then return []
        let e ← expression fuel 0
        return e :: (← moreSteps fuel)
      else return []

def binding : Nat → Reader Expr
  | 0 => return absent
  | fuel + 1 => do
      expectOperator "let"
      let name ← current
      expectName
      expectOperator "="
      let value ← expression fuel 0
      expectOperator ";"
      let body ← sequence fuel
      node (.binding name.start name.value value body)

/-- `if test { yes } else { no }`, where `else` may be followed by another `if`. -/
def choice : Nat → Reader Expr
  | 0 => return absent
  | fuel + 1 => do
      next
      let test ← expression fuel 0
      expectBracket "\x7b"
      let yes ← sequence fuel
      expectBracket "\x7d"
      expectOperator "else"
      if ← atOperator "if" then
        let no ← choice fuel
        return .cond 0 test yes no
      else
        expectBracket "\x7b"
        let no ← sequence fuel
        expectBracket "\x7d"
        return .cond 0 test yes no

/-- An expression whose operators bind at least as tightly as the given precedence. -/
def expression : Nat → Nat → Reader Expr
  | 0, _ => return absent
  | fuel + 1, least => do
      if ← faulty then return absent
      if least == 0 && (← atOperator "let") then binding fuel
      else if least == 0 && (← atOperator "if") then choice fuel
      else
        let left ← primary fuel
        let e ← operators fuel least left []
        if least == 0 then conditional fuel e else return e

def operators : Nat → Nat → Expr → Bytes → Reader Expr
  | 0, _, left, _ => return left
  | fuel + 1, least, left, before => do
      let op ← current
      if op.kind != .operator || (← faulty) then return left
      if op.value == Bytes.ofString "not" then
        next
        let word ← current
        if isNegatable word.value then
          if ((precedence? word.value).getD 0) ≥ least then
            next
            if before == Bytes.ofString "??" then
              fail (.mixedCoalesce word.value)
              return left
            else
              let right ← expression fuel ((precedence? word.value).getD 0 + 1)
              match binaryOp? word.value with
              | some (o, _) =>
                  let inner ← node (.binary word.start o left right)
                  let e ← node (.unary word.start .not inner)
                  if ← faulty then return absent
                  operators fuel least e word.value
              | none => return left
          else
            modify fun st => { st with current := op, rest := word :: st.rest }
            return left
        else
          failHere
          return left
      else match precedence? op.value with
        | none => return left
        | some p =>
            if p < least then return left
            else
              next
              if op.value == Bytes.ofString "|" then
                let word ← current
                expectName
                let e ← callTo fuel word [left]
                operators fuel least e op.value
              else if before == Bytes.ofString "??" && op.value != Bytes.ofString "??" then
                fail (.mixedCoalesce op.value)
                return left
              else match binaryOp? op.value with
                | none => return left
                | some (o, _) =>
                    if isComparison op.value then
                      let e ← comparisons fuel left op o p none
                      operators fuel least e op.value
                    else
                      let right ← expression fuel (if o == .power then p else p + 1)
                      let e ← node (.binary op.start o left right)
                      if ← faulty then return absent
                      operators fuel least e op.value

def comparisons : Nat → Expr → Token → BinaryOp → Nat → Option Expr → Reader Expr
  | 0, left, _, _, _, _ => return left
  | fuel + 1, left, op, o, p, sofar => do
      let right ← expression fuel (p + 1)
      let pair ← node (.binary op.start o left right)
      let whole ←
        match sofar with
        | none => pure pair
        | some e => node (.binary op.start .and e pair)
      if ← faulty then return absent
      let following ← current
      match binaryOp? following.value with
      | some (o', _) =>
          if following.kind == .operator && isComparison following.value then
            next
            comparisons fuel right following o' p (some whole)
          else return whole
      | none => return whole

/-- `test ? yes : no`, and `test ?: no` which keeps the tested value. -/
def conditional : Nat → Expr → Reader Expr
  | 0, e => return e
  | fuel + 1, e => do
      if (← atOperator "?") && !(← faulty) then
        next
        if ← atOperator ":" then
          next
          let no ← expression fuel 0
          let c ← node (.cond (← current).start e e no)
          if ← faulty then return absent
          conditional fuel c
        else
          let yes ← expression fuel 0
          expectOperator ":"
          let no ← expression fuel 0
          let c ← node (.cond (← current).start e yes no)
          if ← faulty then return absent
          conditional fuel c
      else return e

def primary : Nat → Reader Expr
  | 0 => return absent
  | fuel + 1 => do
      let t ← current
      match (if t.kind == .operator then unaryOp? t.value else none) with
      | some (op, p) =>
          next
          let operand ← expression fuel p
          let e ← node (.unary t.start op operand)
          if ← faulty then return absent
          members fuel e
      | none =>
          if t.kind == .bracket && t.value == Bytes.ofString "(" then
            next
            let e ← sequence fuel
            expectBracket ")"
            members fuel e
          else if (← get).depth > 0 && t.kind == .operator && t.value == Bytes.ofString "#" then
            next
            let word ← current
            if word.kind == .name then
              next
              let e ← node (.pointer t.start word.value)
              if ← faulty then return absent
              members fuel e
            else
              let e ← node (.pointer t.start [])
              if ← faulty then return absent
              members fuel e
          else if (← get).depth > 0 && t.kind == .operator && t.value == Bytes.ofString "." then
            let e ← node (.pointer t.start [])
            if ← faulty then return absent
            members fuel e
          else if t.kind == .operator && t.value == Bytes.ofString "::" then
            next
            let word ← current
            expectName
            let e ← callTo fuel word []
            members fuel e
          else operand fuel t

/-- A literal, a name, a call, an array or a record. -/
def operand : Nat → Token → Reader Expr
  | 0, _ => return absent
  | fuel + 1, t => do
      match t.kind with
      | .name =>
          next
          if t.value == Bytes.ofString "true" then node (.bool t.start true)
          else if t.value == Bytes.ofString "false" then node (.bool t.start false)
          else if t.value == Bytes.ofString "nil" then node (.nil t.start)
          else if ← atBracket "(" then
            let e ← callTo fuel t []
            members fuel e
          else
            let e ← node (.name t.start t.value)
            if ← faulty then return absent
            members fuel e
      | .number =>
          next
          match numberNode t with
          | .ok e => node e
          | .error e => fail e; return absent
      | .text =>
          next
          let e ← node (.text t.start t.value)
          if ← faulty then return absent
          members fuel e
      | _ =>
          if t.kind == .bracket && t.value == Bytes.ofString "[" then
            next
            let items ← items fuel true
            expectBracket "]"
            let e ← node (.array t.start items)
            if ← faulty then return absent
            members fuel e
          else if t.kind == .bracket && t.value == Bytes.ofString "\x7b" then
            next
            match ← entries fuel true with
            | none => return absent
            | some es =>
                expectBracket "\x7d"
                let e ← node (.record t.start es)
                if ← faulty then return absent
                members fuel e
          else
            failHere
            return absent

def items : Nat → Bool → Reader (List Expr)
  | 0, _ => return []
  | fuel + 1, first => do
      if (← atBracket "]") || (← faulty) then return []
      if !first then
        expectOperator ","
        if ← atBracket "]" then return []
      let e ← expression fuel 0
      return e :: (← items fuel false)

/-- The entries of a record up to its closing brace; nothing after a fault that ends the
record at once. -/
def entries : Nat → Bool → Reader (Option (List (Expr × Expr)))
  | 0, _ => return some []
  | fuel + 1, first => do
      if (← atBracket "\x7d") || (← faulty) then return some []
      if !first then
        expectOperator ","
        if ← atBracket "\x7d" then return some []
        if ← atOperator "," then failHere
      let t ← current
      if t.kind == .number || t.kind == .text || t.kind == .name then
        let key ← node (.text t.start t.value)
        if ← faulty then return none
        next
        entryValue fuel key
      else if t.kind == .bracket && t.value == Bytes.ofString "(" then
        let key ← expression fuel 0
        entryValue fuel key
      else
        fail (.badKey t)
        entryValue fuel absent

def entryValue : Nat → Expr → Reader (Option (List (Expr × Expr)))
  | 0, _ => return some []
  | fuel + 1, key => do
      expectOperator ":"
      let value ← expression fuel 0
      let _ ← node value
      if ← faulty then return none
      match ← entries fuel false with
      | none => return none
      | some es => return some ((key, value) :: es)

def arguments : Nat → Bool → Reader (List Expr)
  | 0, _ => return []
  | fuel + 1, first => do
      if (← atBracket ")") || (← faulty) then return []
      if !first then
        expectOperator ","
        if ← atBracket ")" then return []
      let e ← expression fuel 0
      return e :: (← arguments fuel false)

/-- A call of a function by its name; a pipe has given the first argument already. -/
def callTo : Nat → Token → List Expr → Reader Expr
  | 0, _, _ => return absent
  | fuel + 1, word, given => do
      match predicateFunctions.find? (·.1 == word.value) with
      | some (_, sorts) =>
          expectBracket "("
          let wanted := sorts.drop given.length
          let args ← sortedArguments fuel wanted wanted.length true
          if ← atOperator "," then next
          expectBracket ")"
          let e ← node (.builtin word.start word.value (given ++ args))
          if ← faulty then return absent
          return e
      | none =>
          if plainFunctions.contains word.value then
            expectBracket "("
            let args ← arguments fuel true
            expectBracket ")"
            let e ← node (.builtin word.start word.value (given ++ args))
            if ← faulty then return absent
            return e
          else
            let callee ← node (.name word.start word.value)
            if ← faulty then return absent
            expectBracket "("
            let args ← arguments fuel true
            expectBracket ")"
            node (.call word.start callee (given ++ args))

def sortedArguments : Nat → List ArgSort → Nat → Bool → Reader (List Expr)
  | 0, _, _, _ => return []
  | _ + 1, [], _, _ => return []
  | fuel + 1, sort :: sorts, count, first => do
      let closing ← atBracket ")"
      if closing && sort.isOptional then return []
      if closing then fail (.fewArguments count)
      if !first then expectOperator ","
      let e ← if sort.isPredicate then predicate fuel else expression fuel 0
      return e :: (← sortedArguments fuel sorts count false)

/-- A predicate: an expression, or a sequence in braces, over the current item. -/
def predicate : Nat → Reader Expr
  | 0 => return absent
  | fuel + 1 => do
      let start := (← current).start
      let braced ← atBracket "\x7b"
      if braced then next
      modify fun st => { st with depth := st.depth + 1 }
      let body ← if braced then sequence fuel else expression fuel 0
      if !braced && (← atOperator ";") then fail .bareSequence
      modify fun st => { st with depth := st.depth - 1 }
      if braced then expectBracket "\x7d"
      node (.predicate start body)

/-- The members, indices, slices and method calls after an operand. -/
def members : Nat → Expr → Reader Expr
  | 0, e => return e
  | fuel + 1, e => do
      let t ← current
      if (t.kind != .operator && t.kind != .bracket) || (← faulty) then return e
      if t.value == Bytes.ofString "." || t.value == Bytes.ofString "?." then
        let optional := t.value == Bytes.ofString "?."
        next
        let property ← current
        if optional && property.kind == .bracket && property.value == Bytes.ofString "[" then
          let e ← index fuel e property true
          members fuel e
        else
          next
          if property.kind != .name && (property.kind != .operator || !isName property.value) then
            fail .expectedName
          let key ← node (.text property.start property.value)
          if ← faulty then return absent
          let (object, chained) :=
            match e with
            | .chain _ link => (link, true)
            | _ => (e, false)
          let m ← node (.member property.start object key optional)
          if ← faulty then return absent
          let m ←
            if ← atBracket "(" then do
              expectBracket "("
              let args ← arguments fuel true
              expectBracket ")"
              node (.call property.start m args)
            else pure m
          if ← faulty then return absent
          if chained || optional then
            let m ← node (.chain property.start m)
            if ← faulty then return absent
            members fuel m
          else members fuel m
      else if t.value == Bytes.ofString "[" then
        let e ← index fuel e t false
        members fuel e
      else return e

def index : Nat → Expr → Token → Bool → Reader Expr
  | 0, e, _, _ => return e
  | fuel + 1, e, t, optional => do
      next
      if ← atOperator ":" then
        next
        if ← atBracket "]" then
          let s ← node (.slice t.start e none none)
          if ← faulty then return absent
          expectBracket "]"
          return s
        else
          let high ← expression fuel 0
          let s ← node (.slice t.start e none (some high))
          if ← faulty then return absent
          expectBracket "]"
          return s
      else
        let low ← expression fuel 0
        if ← atOperator ":" then
          next
          if ← atBracket "]" then
            let s ← node (.slice t.start e (some low) none)
            if ← faulty then return absent
            expectBracket "]"
            return s
          else
            let high ← expression fuel 0
            let s ← node (.slice t.start e (some low) (some high))
            if ← faulty then return absent
            expectBracket "]"
            return s
        else
          let m ← node (.member t.start e low optional)
          if ← faulty then return absent
          let m ← if optional then node (.chain t.start m) else pure m
          if ← faulty then return absent
          expectBracket "]"
          return m

end

def readAll (source : Bytes) : Except ParseError Expr :=
  let (tokens, failure) := lex source
  let start : ReadState := ⟨⟨.eof, [], 0⟩, tokens, failure, none, 0, 0⟩
  let (e, st) := (do
    next
    let e ← sequence (24 * (tokens.length + 4))
    if (← current).kind != .eof then failHere
    return e : Reader Expr).run start
  match st.fault with
  | some err => .error err
  | none => .ok e

end TagLoom.Expr.Reading

namespace TagLoom.Expr

export Reading (ParseError)

def parse (source : Bytes) : Except ParseError Expr := Reading.readAll source

end TagLoom.Expr

import TagLoom.Expr.Check
import TagLoom.Decimal.Power

/-!
# Simplifying plans

Constant parts of a plan are computed once, before any name has a value, and a few combinations of
functions are replaced by one that does less work.  Each rule looks at one node whose parts are
simplified already, and one sweep applies it everywhere.  What replaces a node keeps its place, so
a later error points there; nodes a rule makes besides point at the start of the source.
-/

namespace TagLoom.Plan

open TagLoom.Expr (Checked flaw)

def made : Note := ⟨0, .unknown⟩

def allInts? (items : List Plan) : Option (List Int) :=
  items.mapM fun
    | .int _ n => some n
    | _ => none

def allTexts? (items : List Plan) : Option (List Bytes) :=
  items.mapM fun
    | .text _ s => some s
    | _ => none

/-! ## Membership -/

/-- Membership in a list of text literals is looked up by text, and that of a whole number in a
list of whole numbers by number. -/
def inSet : Plan → Plan
  | .binary n .isIn l (.array m items) =>
      let whole := Plan.binary n .isIn l (.array m items)
      if items.isEmpty then whole
      else match (if l.type.isInt then allInts? items else none), allTexts? items with
        | some ints, _ => .binary n .isIn l (.intSet made ints)
        | none, some texts => .binary n .isIn l (.textSet made texts)
        | none, none => whole
  | p => p

def inRange : Plan → Plan
  | .binary n .isIn l (.binary m .range (.int a low) (.int b high)) =>
      if l.type.isInt then
        .binary n .and (.binary made .greaterEqual l (.int a low))
          (.binary made .lessEqual l (.int b high))
      else .binary n .isIn l (.binary m .range (.int a low) (.int b high))
  | p => p

/-! ## Constants -/

def wrapInt (n : Int) : Int := Int.bmod n 18446744073709551616

def number? : Plan → Option (Float × Option Int)
  | .int _ n => some (Float.ofInt n, some n)
  | .float _ f => some (f, none)
  | _ => none

def foldNumbers (pos : Nat) (op : BinaryOp) (a b : Float × Option Int) : Checked (Option Plan) :=
  let both (onInts : Int → Int → Int) (onFloats : Float → Float → Float) : Plan :=
    match a.2, b.2 with
    | some m, some n => .int ⟨pos, .int⟩ (wrapInt (onInts m n))
    | _, _ => .float ⟨pos, .float⟩ (onFloats a.1 b.1)
  match op with
  | .add => .ok (some (both (· + ·) (· + ·)))
  | .subtract => .ok (some (both (· - ·) (· - ·)))
  | .multiply => .ok (some (both (· * ·) (· * ·)))
  | .divide => .ok (some (.float ⟨pos, .float⟩ (a.1 / b.1)))
  | .power => .ok (some (.float ⟨pos, .float⟩ (Decimal.power a.1 b.1)))
  | .modulo =>
      match a.2, b.2 with
      | some m, some n =>
          if n == 0 then flaw pos .divisionByZero
          else .ok (some (.int ⟨pos, .int⟩ (Int.tmod m n)))
      | _, _ => .ok none
  | .equal =>
      match a.2, b.2 with
      | some m, some n => .ok (some (.bool ⟨pos, .unknown⟩ (m == n)))
      | _, _ => .ok none
  | _ => .ok none

/-- The simpler form of an operation on two operands.  Nothing is known any more of the type of a
text or a truth value that was computed. -/
def foldBinary (n : Note) (op : BinaryOp) (l r : Plan) : Checked Plan :=
  let whole := Plan.binary n op l r
  let lost : Note := ⟨n.pos, .unknown⟩
  match op, l, r with
  | .and, .bool _ true, _ => .ok (r.moveTo n.pos)
  | .and, _, .bool _ true => .ok (l.moveTo n.pos)
  | .and, .bool _ false, _ => .ok (.bool lost false)
  | .and, _, .bool _ false => .ok (.bool lost false)
  | .or, .bool _ false, _ => .ok (r.moveTo n.pos)
  | .or, _, .bool _ false => .ok (l.moveTo n.pos)
  | .or, .bool _ true, _ => .ok (.bool lost true)
  | .or, _, .bool _ true => .ok (.bool lost true)
  | .add, .text _ a, .text _ b => .ok (.text lost (a ++ b))
  | .equal, .text _ a, .text _ b => .ok (.bool lost (a == b))
  | .equal, .bool _ a, .bool _ b => .ok (.bool lost (a == b))
  | _, _, _ =>
      match number? l, number? r with
      | some a, some b => do return ((← foldNumbers n.pos op a b).getD whole)
      | _, _ => .ok whole

def foldUnary (n : Note) (op : UnaryOp) (p : Plan) : Plan :=
  match op, p with
  | .not, .bool _ b => .bool ⟨n.pos, .unknown⟩ !b
  | .minus, .int _ i => .int ⟨n.pos, .int⟩ (wrapInt (-i))
  | .minus, .float _ f => .float ⟨n.pos, .float⟩ (-f)
  | .plus, .int _ i => .int ⟨n.pos, .int⟩ i
  | .plus, .float _ f => .float ⟨n.pos, .float⟩ f
  | _, _ => .unary n op p

def isScalar : Plan → Bool
  | .int _ _ | .float _ _ | .text _ _ | .bool _ _ => true
  | _ => false

/-- Computes what is constant.  A filter of a filtered list becomes one filter by both
conditions. -/
def fold : Plan → Checked Plan
  | .unary n op p => .ok (foldUnary n op p)
  | .binary n op l r => foldBinary n op l r
  | .array n items =>
      .ok (if !items.isEmpty && items.all isScalar then .constants ⟨n.pos, .unknown⟩ items
        else .array n items)
  | .iteration n .filter (.iteration _ .filter c (some a) none) (some b) none => do
      return .iteration ⟨n.pos, .unknown⟩ .filter c (some (← foldBinary made .and a b)) none
  | p => .ok p

/-! ## Combinations of functions -/

def mapOfFilter : Plan → Plan
  | .iteration n .map (.iteration m .filter c b none) (some f) none =>
      if f.readsIndex then .iteration n .map (.iteration m .filter c b none) (some f) none
      else .iteration n .filter c b (some f)
  | p => p

/-- Items that are kept and then counted are only counted. -/
def lengthOfFilter : Plan → Plan
  | .builtin n f [.iteration m .filter c b r] =>
      if f == Bytes.ofString "len" then .iteration n .count c b none
      else .builtin n f [.iteration m .filter c b r]
  | p => p

def lastOfFilter : Plan → Plan
  | .member n (.iteration _ .filter c b r) (.int _ (-1)) false =>
      .iteration n (.findLast true) c b r
  | .builtin n f [.iteration m .filter c b r] =>
      if f == Bytes.ofString "last" then .iteration n (.findLast false) c b r
      else .builtin n f [.iteration m .filter c b r]
  | p => p

def firstOfFilter : Plan → Plan
  | .member n (.iteration _ .filter c b r) (.int _ 0) false => .iteration n (.find true) c b r
  | .builtin n f [.iteration m .filter c b r] =>
      if f == Bytes.ofString "first" then .iteration n (.find false) c b r
      else .builtin n f [.iteration m .filter c b r]
  | p => p

def joining? : Iteration → BinaryOp → Option BinaryOp
  | .all, .and => some .and
  | .any, .or => some .or
  | .none, .and => some .or
  | _, _ => none

def combine (n : Note) (op : BinaryOp) : Plan → Plan → Plan
  | .iteration m fn c (some a) none, r =>
      let whole := Plan.binary n op (.iteration m fn c (some a) none) r
      match joining? fn op, r with
      | some joined, .iteration _ fn' c' (some b) none =>
          if fn == fn' && c.type.plain.label == c'.type.plain.label && c.spelled == c'.spelled then
            .iteration n fn c (some (combine made joined a b)) none
          else whole
      | _, _ => whole
  | l, r => .binary n op l r

def combineQuestions : Plan → Plan
  | .binary n op l r => combine n op l r
  | p => p

def sumOf (n : Note) : List Plan → Option Plan
  | [a, b] => some (.binary n .add a b)
  | a :: rest => (sumOf made rest).map fun s => .binary n .add a s
  | [] => none

def sumOfArray : Plan → Plan
  | .iteration n .sum (.array m items) none none =>
      (sumOf n items).getD (.iteration n .sum (.array m items) none none)
  | p => p

def sumOfMap : Plan → Plan
  | .iteration n .sum (.iteration _ .map c (some f) none) none none =>
      .iteration n .sum c (some f) none
  | p => p

/-! ## All rules -/

/-- The rules that never find a flaw, in the order they are swept over a folded plan. -/
def laterRules : List (Plan → Plan) :=
  [inRange, mapOfFilter, lengthOfFilter, lastOfFilter, firstOfFilter, combineQuestions, sumOfArray,
    sumOfMap]

def simplify (p : Plan) : Checked Plan := do
  let p ← p.sweep fun q => .ok q.inSet
  let p ← p.sweep fold
  laterRules.foldlM (fun p rule => p.sweep fun q => .ok (rule q)) p

end TagLoom.Plan

namespace TagLoom.Expr

def prepare (e : Expr) : Checked Plan := do
  let plan ← check ⟨[], []⟩ e
  plan.simplify

end TagLoom.Expr

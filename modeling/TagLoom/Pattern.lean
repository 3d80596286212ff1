import TagLoom.Bytes.Utf8
import TagLoom.Unicode.Case
import TagLoom.Unicode.Letter

/-!
# Patterns

Regular expressions over characters.  A pattern is matched by the set of positions at which a
match that starts at a given position may end, so there is no backtracking and no input makes
matching run long.
-/

namespace TagLoom

/-- A class of characters: those in some ranges, or those outside of all.  Where case does not
matter, a character is in a range when one of its case partners is. -/
structure RuneClass where
  negated : Bool
  folded : Bool
  ranges : List (Nat × Nat)
deriving DecidableEq

def RuneClass.has (c : RuneClass) (r : Nat) : Bool :=
  (if c.folded then (Unicode.casePartners r).any (Unicode.inRanges c.ranges)
    else Unicode.inRanges c.ranges r) != c.negated

structure RuneSet where
  negated : Bool
  classes : List RuneClass
deriving DecidableEq

def RuneSet.has (s : RuneSet) (r : Nat) : Bool := s.classes.any (·.has r) != s.negated

inductive Pattern where
  | empty
  | runes (set : RuneSet)
  | textStart
  | textEnd
  | lineStart
  | lineEnd
  | wordEdge (negated : Bool)
  | seq (first second : Pattern)
  | alt (first second : Pattern)
  | repeated (p : Pattern) (least : Nat) (most : Option Nat)
  | group (inside : Pattern)

namespace Pattern

/-! ## Matching -/

def isWordRune (r : Nat) : Bool :=
  (48 ≤ r && r ≤ 57) || (65 ≤ r && r ≤ 90) || (97 ≤ r && r ≤ 122) || r == 95

def atWordEdge (text : Array Nat) (i : Nat) : Bool :=
  let before := i > 0 && (text[i - 1]?.map isWordRune).getD false
  let after := (text[i]?.map isWordRune).getD false
  before != after

def insertNew (known : List Nat) (i : Nat) : List Nat := if known.contains i then known else known ++ [i]

def union (xs ys : List Nat) : List Nat := ys.foldl insertNew xs

def stepAll (step : Nat → List Nat) (from_ : List Nat) : List Nat :=
  from_.foldl (fun acc i => union acc (step i)) []

def stepTimes (step : Nat → List Nat) : Nat → List Nat → List Nat
  | 0, from_ => from_
  | n + 1, from_ => stepTimes step n (stepAll step from_)

def stepUpTo (step : Nat → List Nat) : Nat → List Nat → List Nat
  | 0, from_ => from_
  | n + 1, from_ =>
      let next := union from_ (stepAll step from_)
      if next.length == from_.length then from_ else stepUpTo step n next

def ends (text : Array Nat) : Pattern → Nat → List Nat
  | .empty, i => [i]
  | .runes set, i =>
      match text[i]? with
      | some r => if set.has r then [i + 1] else []
      | none => []
  | .textStart, i => if i == 0 then [i] else []
  | .textEnd, i => if i == text.size then [i] else []
  | .lineStart, i => if i == 0 || text[i - 1]? == some 10 then [i] else []
  | .lineEnd, i => if i == text.size || text[i]? == some 10 then [i] else []
  | .wordEdge negated, i => if atWordEdge text i != negated then [i] else []
  | .seq p q, i => stepAll (ends text q) (ends text p i)
  | .alt p q, i => union (ends text p i) (ends text q i)
  | .repeated p least most, i =>
      let base := stepTimes (ends text p) least [i]
      match most with
      | some m => stepUpTo (ends text p) (m - least) base
      | none => stepUpTo (ends text p) (text.size + 1) base
  | .group p, i => ends text p i

def isMatch (p : Pattern) (s : Bytes) : Bool :=
  let text := (Utf8.runes s).toArray
  (List.range (text.size + 1)).any fun i => !(ends text p i).isEmpty

end Pattern

end TagLoom

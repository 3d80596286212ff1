/-!
# Shortest decimals

A finite float is an exact binary fraction.  Its shortest decimal is the one with
the fewest digits among those that read back as the same float and, of these, the
nearest to it.  All comparisons are made in exact natural-number arithmetic.
-/

namespace TagLoom

structure Decimal where
  digits : List Nat
  point : Int
deriving DecidableEq

/-- What the bits of a float say: a sign and a fraction `m · 2 ^ q`, an infinity, or
no number. -/
inductive Binary where
  | finite (negative : Bool) (m : Nat) (q : Int)
  | infinite (negative : Bool)
  | nan
deriving DecidableEq

namespace Binary

/-- Reads sign, exponent and fraction off the 64 bits. -/
def ofBits (bits : UInt64) : Binary :=
  let n := bits.toNat
  let negative := n / Nat.pow 2 63 == 1
  let exponent := n / Nat.pow 2 52 % 2048
  let fraction := n % Nat.pow 2 52
  if exponent == 2047 then if fraction == 0 then .infinite negative else .nan
  else if exponent == 0 then .finite negative fraction (-1074)
  else .finite negative (fraction + Nat.pow 2 52) (Int.ofNat exponent - 1075)

def ofFloat (f : Float) : Binary := ofBits f.toBits

end Binary

namespace Decimal

/-- The decimal digits of a number, most significant first. -/
def digitsOf (n : Nat) : List Nat := (Nat.toDigits 10 n).map fun c => c.toNat - 48

def scale (num den : Nat) (k : Int) : Nat × Nat :=
  if k < 0 then (num, den * Nat.pow 10 k.natAbs) else (num * Nat.pow 10 k.natAbs, den)

/-- The least `k` counted down from the start with `num / den < 10 ^ k` no longer
true below; the fraction is smaller than `10 ^ start`. -/
def magnitude (num den : Nat) : Nat → Int → Int
  | 0, start => start
  | fuel + 1, start =>
      let (n, d) := scale num den (1 - start)
      if d ≤ n then start else magnitude num den fuel (start - 1)

/-- The numbers of `n` digits next to the fraction that lie in the interval from
`low` to `high`, both over `den`: the nearest of them, if any. -/
def onGrid (low num high den : Nat) (closed : Bool) (k : Int) (n : Nat) : Option Nat :=
  let shift := Int.ofNat n - k
  let (v, d) := scale num den shift
  let (l, _) := scale low den shift
  let (h, _) := scale high den shift
  let inside (c : Nat) : Bool :=
    if closed then l ≤ c * d && c * d ≤ h else l < c * d && c * d < h
  let below := v / d
  let above := below + 1
  let rest := v % d
  let belowFirst := 2 * rest < d || (2 * rest == d && below % 2 == 0)
  match inside below, inside above with
  | true, true => some (if belowFirst then below else above)
  | true, false => some below
  | false, true => some above
  | false, false => none

/-- The first grid of `n`, `n + 1`, … digits that has a point in the interval. -/
def firstGrid (low num high den : Nat) (closed : Bool) (k : Int) : Nat → Nat → Decimal
  | 0, n => ⟨digitsOf (num / den), n⟩
  | fuel + 1, n =>
      match onGrid low num high den closed k n with
      | some c =>
          let digits := digitsOf c
          let kept := (digits.reverse.dropWhile (· == 0)).reverse
          ⟨kept, k + (Int.ofNat digits.length - n)⟩
      | none => firstGrid low num high den closed k fuel (n + 1)

def shortest (m : Nat) (q : Int) : Decimal :=
  if m == 0 then ⟨[], 0⟩
  else
    let unit := if q < 0 then 1 else Nat.pow 2 q.natAbs
    let den := if q < 0 then 4 * Nat.pow 2 q.natAbs else 4
    let num := 4 * m * unit
    let gapBelow := if m == Nat.pow 2 52 && q > -1074 then unit else 2 * unit
    let k := magnitude num den 700 310
    firstGrid (num - gapBelow) num (num + 2 * unit) den (m % 2 == 0) k 20 1

end Decimal

end TagLoom

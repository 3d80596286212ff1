import TagLoom.Decimal
import TagLoom.Decimal.Read

/-!
# Powers

A float to a power.  The whole part of the exponent is done by repeated squaring on the fraction
with the exponents of two kept apart, and the rest, at most one half, by a logarithm and an
exponential.  The order of roundings is fixed throughout, so the last digit is too.
-/

namespace TagLoom.Decimal

/-! ## Products and sums rounded once -/

/-- The exact value of a finite float as `n · 2 ^ q`; anything else counts as zero. -/
def exactly (f : Float) : Int × Int :=
  match Binary.ofFloat f with
  | .finite negative m q => (if negative then -Int.ofNat m else Int.ofNat m, q)
  | _ => (0, 0)

def multiplyAdd (a b c : Float) : Float :=
  let (m, p) := exactly a
  let (n, q) := exactly b
  let (k, r) := exactly c
  let e := min (p + q) r
  let sum := m * n * Int.pow 2 (p + q - e).toNat + k * Int.pow 2 (r - e).toNat
  let magnitude := toFloatBinary sum.natAbs e
  if sum < 0 then -magnitude else magnitude

/-! ## Logarithms -/

/-- The natural logarithm of a positive finite float.  With `x = 2 ^ k · (1 + f)` near one and
`s = f / (2 + f)`, the logarithm of `1 + f` is `2 s + s · R` for an even series `R` in `s`. -/
def naturalLog (x : Float) : Float :=
  let (fraction, exponent) := x.frExp
  let (fraction, exponent) :=
    if fraction < 0.70710678118654752440 then (fraction * 2.0, exponent - 1) else (fraction, exponent)
  let f := fraction - 1.0
  let k := Float.ofInt exponent
  let s := f / (2.0 + f)
  let s2 := s * s
  let s4 := s2 * s2
  let odd := s2 * (6.666666666666735130e-01 + s4 * (2.857142874366239149e-01 +
    s4 * (1.818357216161805012e-01 + s4 * 1.479819860511658591e-01)))
  let even := s4 * (3.999999999940941908e-01 + s4 * (2.222219843214978396e-01 +
    s4 * 1.531383769920937332e-01))
  let series := odd + even
  let half := 0.5 * f * f
  k * 6.93147180369123816490e-01 -
    ((half - (s * (half + series) + k * 1.90821492927058770002e-10)) - f)

/-! ## Exponentials -/

def nearestWhole (x : Float) : Float :=
  let below := x.floor
  let rest := x - below
  if rest < 0.5 then below
  else if rest > 0.5 then below + 1.0
  else if (below / 2.0).floor * 2.0 == below then below else below + 1.0

/-- The coefficients of the series of `(exp x - 1) / x`, the highest first. -/
def seriesCoefficients : List Float :=
  [1.9841269841269841270e-4, 1.3888888888888888889e-3, 8.3333333333333333333e-3,
    4.1666666666666666667e-2, 1.6666666666666666667e-1, 0.5, 1.0]

/-- The exponential of a float of moderate size.  A multiple of `log 2` is taken off, a sixteenth of
the rest goes through the series, and `y (y + 2)` squares `1 + y` four times. -/
def exponential (x : Float) : Float :=
  let k := nearestWhole (1.4426950408889634073599246810018920 * x)
  let x := multiplyAdd (-0.69314718055966295651160180568695068359375) k x
  let x := multiplyAdd (-0.28235290563031577122588448175013436025525412068e-12) k x
  let x := x * 0.0625
  let series := seriesCoefficients.foldl (fun acc c => multiplyAdd acc x c)
    2.4801587301587301587e-5
  let y := x * series
  let y := y * (y + 2.0)
  let y := y * (y + 2.0)
  let y := y * (y + 2.0)
  Float.scaleB (multiplyAdd y (y + 2.0) 1.0) k.toInt64.toInt

/-! ## Whole powers -/

/-- The state of a repeated squaring: the product so far and the current square, each as a
fraction and an exponent of two. -/
structure Squaring where
  product : Float
  productExp : Int
  square : Float
  squareExp : Int

def Squaring.step (s : Squaring) (odd : Bool) : Squaring :=
  let (product, productExp) :=
    if odd then (s.product * s.square, s.productExp + s.squareExp)
    else (s.product, s.productExp)
  let square := s.square * s.square
  let squareExp := 2 * s.squareExp
  if square < 0.5 then ⟨product, productExp, square + square, squareExp - 1⟩
  else ⟨product, productExp, square, squareExp⟩

/-- Squares through the bits of `n`; the first argument bounds their number.  A square far out of
range settles the product. -/
def squarings : Nat → Nat → Squaring → Squaring
  | 0, _, s => s
  | fuel + 1, n, s =>
      if n == 0 then s
      else if s.squareExp < -4096 || 4096 < s.squareExp then
        { s with productExp := s.productExp + s.squareExp }
      else squarings fuel (n / 2) (s.step (n % 2 == 1))

/-- Exponents from here on are even and lead out of range. -/
def hugeExponent : Float := 9223372036854775808.0

def finitePower (x y : Float) : Float :=
  let whole := y.abs.floor
  let rest := y.abs - whole
  if rest != 0.0 && x < 0.0 then 0.0 / 0.0
  else if whole ≥ hugeExponent then
    if x == -1.0 then 1.0
    else if (x.abs < 1.0) == (y > 0.0) then 0.0
    else 1.0 / 0.0
  else
    let (whole, rest) := if rest > 0.5 then (whole + 1.0, rest - 1.0) else (whole, rest)
    let start := if rest == 0.0 then 1.0 else exponential (rest * naturalLog x)
    let (fraction, exponent) := x.frExp
    let s := squarings 64 whole.toUInt64.toNat ⟨start, 0, fraction, exponent⟩
    if y < 0.0 then Float.scaleB (1.0 / s.product) (-s.productExp)
    else Float.scaleB s.product s.productExp

/-! ## Powers -/

def isOddWhole (y : Float) : Bool :=
  y.abs < 9007199254740992.0 && y.floor == y && y.abs.toUInt64.toNat % 2 == 1

def isNegative (x : Float) : Bool := x.toBits.toNat / Nat.pow 2 63 == 1

def zeroPower (x y : Float) : Float :=
  let keepsSign := isNegative x && isOddWhole y
  if y < 0.0 then (if keepsSign then -1.0 / 0.0 else 1.0 / 0.0)
  else if keepsSign then x else 0.0

def power (x y : Float) : Float :=
  if y == 0.0 || x == 1.0 then 1.0
  else if y == 1.0 then x
  else if x.isNaN || y.isNaN then 0.0 / 0.0
  else if x == 0.0 then zeroPower x y
  else if y.isInf then
    if x == -1.0 then 1.0
    else if (x.abs < 1.0) == (y > 0.0) then 0.0
    else 1.0 / 0.0
  else if x.isInf then
    if x < 0.0 then zeroPower (-0.0) (-y)
    else if y < 0.0 then 0.0
    else x
  else if y == 0.5 then x.sqrt
  else if y == -0.5 then 1.0 / x.sqrt
  else finitePower x y

end TagLoom.Decimal

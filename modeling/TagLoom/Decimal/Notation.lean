import TagLoom.Bytes
import TagLoom.Decimal

/-!
# Written numbers

Two notations for floats, both with the fewest digits that read back: positional
notation, and general notation, which turns to an exponent for large and small
magnitudes.
-/

namespace TagLoom.Decimal

def digitBytes (digits : List Nat) : Bytes := digits.map fun d => (48 + d).toUInt8

def positional (d : Decimal) : Bytes :=
  let digits := digitBytes d.digits
  if d.digits.isEmpty then "0"
  else if d.point ≤ 0 then "0." ++ Bytes.fill d.point.natAbs 48 ++ digits
  else
    let whole := d.point.toNat
    if digits.length ≤ whole then digits ++ Bytes.fill (whole - digits.length) 48
    else digits.take whole ++ "." ++ digits.drop whole

/-- One digit, the others after a point, and an exponent of at least two digits. -/
def scientific (d : Decimal) : Bytes :=
  let digits := if d.digits.isEmpty then Bytes.ofString "0" else digitBytes d.digits
  let exponent : Int := if d.digits.isEmpty then 0 else d.point - 1
  let magnitude := Bytes.ofNat exponent.natAbs
  digits.take 1 ++ (if digits.length > 1 then "." ++ digits.drop 1 else []) ++
    (if exponent < 0 then Bytes.ofString "e-" else "e+") ++
    (if magnitude.length < 2 then "0" ++ magnitude else magnitude)

def general (d : Decimal) : Bytes :=
  let exponent := d.point - 1
  if d.digits.isEmpty then "0"
  else if exponent < -4 || exponent ≥ 6 then scientific d
  else positional d

def writeWith (notate : Decimal → Bytes) (f : Float) : Bytes :=
  match Binary.ofFloat f with
  | .nan => "NaN"
  | .infinite false => "+Inf"
  | .infinite true => "-Inf"
  | .finite negative m q =>
      (if negative then Bytes.ofString "-" else []) ++ notate (shortest m q)

def writePositional (f : Float) : Bytes := writeWith positional f

def writeGeneral (f : Float) : Bytes := writeWith general f

end TagLoom.Decimal

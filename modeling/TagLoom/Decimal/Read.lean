import TagLoom.Bytes

/-!
# Reading numbers

Integers in a base and decimal floats, with the two ways reading can fail: the
text is no number, or the number does not fit.
-/

namespace TagLoom.Decimal

inductive ReadError where
  | malformed
  | outOfRange
deriving DecidableEq

def ReadError.message : ReadError → Bytes
  | .malformed => "invalid syntax"
  | .outOfRange => "value out of range"

def digitValue (c : UInt8) : Option Nat :=
  if Bytes.isDigit c then some (c.toNat - 48)
  else if Bytes.isLower c then some (c.toNat - 87)
  else if Bytes.isUpper c then some (c.toNat - 55)
  else none

def readNat? (base : Nat) (s : Bytes) : Option Nat :=
  if s.isEmpty then none
  else s.foldl (fun acc c => do
    let n ← acc
    let d ← digitValue c
    if d < base then some (n * base + d) else none) (some 0)

def minInt : Int := -9223372036854775808

def maxInt : Int := 9223372036854775807

def maxUnsigned : Nat := 18446744073709551615

def isSign (c : UInt8) : Bool := c == '+'.toUInt8 || c == '-'.toUInt8

def cutSign : Bytes → Bool × Bytes
  | c :: rest => if isSign c then (c == '-'.toUInt8, rest) else (false, c :: rest)
  | [] => (false, [])

def readInt (base : Nat) (s : Bytes) : Except ReadError Int :=
  let (negative, digits) := cutSign s
  match readNat? base digits with
  | none => .error .malformed
  | some n =>
      let value := if negative then -Int.ofNat n else Int.ofNat n
      if minInt ≤ value && value ≤ maxInt then .ok value else .error .outOfRange

/-- The base a prefix such as `0x` announces, and the digits after it. -/
def cutBase (s : Bytes) : Nat × Bytes :=
  match s with
  | z :: c :: rest =>
      if z == '0'.toUInt8 then
        let c := Bytes.lowerByte c
        if c == 'x'.toUInt8 then (16, rest)
        else if c == 'o'.toUInt8 then (8, rest)
        else if c == 'b'.toUInt8 then (2, rest)
        else (8, c :: rest)
      else (10, s)
  | _ => (10, s)

def readPrefixedInt (s : Bytes) : Except ReadError Int :=
  let (negative, rest) := cutSign s
  let (base, digits) := cutBase rest
  match readNat? base digits with
  | none => .error .malformed
  | some n =>
      let value := if negative then -Int.ofNat n else Int.ofNat n
      if minInt ≤ value && value ≤ maxInt then .ok value else .error .outOfRange

def toFloat (m : Nat) (e : Int) : Float :=
  if m == 0 then 0.0
  else
    let magnitude := Int.ofNat (Nat.toDigits 10 m).length + e
    if magnitude > 320 then 1.0 / 0.0
    else if magnitude < -340 then 0.0
    else Float.ofScientific m (e < 0) e.natAbs

def isInfinite (f : Float) : Bool := f == 1.0 / 0.0 || f == -1.0 / 0.0

def toFloatBinary (m : Nat) (e : Int) : Float :=
  if m == 0 then 0.0
  else
    let magnitude := Int.ofNat m.log2 + e
    if magnitude > 1100 then 1.0 / 0.0
    else if magnitude < -1200 then 0.0
    else if e < 0 then Float.ofScientific (m * Nat.pow 5 e.natAbs) true e.natAbs
    else Float.ofScientific (m * Nat.pow 2 e.natAbs) false 0

/-- What stands before a place in a number: nothing, a digit, an underscore, something else. -/
inductive Separation where
  | start
  | digit
  | underscore
  | other
deriving DecidableEq

/-- Whether every underscore stands between two digits of a base. -/
def separatedFrom (base : Nat) : Separation → Bytes → Bool
  | before, [] => before != .underscore
  | before, c :: rest =>
      if c == '_'.toUInt8 then before == .digit && separatedFrom base .underscore rest
      else if ((digitValue c).map fun d => decide (d < base)).getD false then
        separatedFrom base .digit rest
      else before != .underscore && separatedFrom base .other rest

/-- Whether the underscores of a number without its sign stand between digits; the letter that
announces a base counts as a digit. -/
def separated (s : Bytes) : Bool :=
  match s with
  | z :: c :: rest =>
      let c := Bytes.lowerByte c
      if z == '0'.toUInt8 && (c == 'x'.toUInt8 || c == 'o'.toUInt8 || c == 'b'.toUInt8) then
        separatedFrom (if c == 'x'.toUInt8 then 16 else 10) .digit rest
      else separatedFrom 10 .start s
  | _ => separatedFrom 10 .start s

def withoutUnderscores (s : Bytes) : Bytes := s.filter (· != '_'.toUInt8)

/-- Digits of a base with an optional point and an optional exponent after a mark: the digits
as one number, how many stand after the point, and the exponent. -/
def readParts? (base : Nat) (mark : UInt8) (s : Bytes) : Option (Nat × Nat × Option Int) := do
  let isDigit (c : UInt8) : Bool := ((digitValue c).map fun d => decide (d < base)).getD false
  let whole := s.takeWhile isDigit
  let rest := s.dropWhile isDigit
  let (fraction, rest) :=
    match rest with
    | c :: after =>
        if c == '.'.toUInt8 then (after.takeWhile isDigit, after.dropWhile isDigit)
        else (([] : Bytes), rest)
    | [] => ([], [])
  let m ← readNat? base (whole ++ fraction)
  match rest with
  | [] => some (m, fraction.length, none)
  | c :: after =>
      if Bytes.lowerByte c != mark then none
      else
        let (negative, digits) := cutSign after
        let e ← readNat? 10 digits
        some (m, fraction.length, some (if negative then -Int.ofNat e else Int.ofNat e))

def readDecimal? (s : Bytes) : Option Float :=
  (readParts? 10 'e'.toUInt8 s).map fun (m, places, e) => toFloat m (e.getD 0 - Int.ofNat places)

/-- The value of a number in hexadecimal notation after its base; it must have an exponent,
which is one of two. -/
def readHexadecimal? (s : Bytes) : Option Float :=
  (readParts? 16 'p'.toUInt8 s).bind fun (m, places, e) =>
    e.map fun e => toFloatBinary m (e - 4 * Int.ofNat places)

/-- A number without its sign, in decimal notation or after `0x` in hexadecimal notation. -/
def readMagnitude? (s : Bytes) : Option Float :=
  match s with
  | z :: x :: rest =>
      if z == '0'.toUInt8 && Bytes.lowerByte x == 'x'.toUInt8 then readHexadecimal? rest
      else readDecimal? s
  | _ => readDecimal? s

/-- A float: decimal or hexadecimal notation with optional sign and point, with underscores
between digits, or one of the names of infinity and of no number in any case. -/
def readFloat (s : Bytes) : Except ReadError Float :=
  let (negative, rest) := cutSign s
  let sign (f : Float) : Float := if negative then -f else f
  let name := Bytes.lowerAscii rest
  if name == Bytes.ofString "inf" || name == Bytes.ofString "infinity" then .ok (sign (1.0 / 0.0))
  else if name == Bytes.ofString "nan" && rest.length == s.length then .ok (0.0 / 0.0)
  else if !separated rest then .error .malformed
  else match readMagnitude? (withoutUnderscores rest) with
    | none => .error .malformed
    | some f => if isInfinite f then .error .outOfRange else .ok (sign f)

end TagLoom.Decimal

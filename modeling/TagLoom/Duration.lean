import TagLoom.Decimal.Read
import TagLoom.Bytes.Quoted

/-!
# Durations

Spans of time in nanoseconds.  They are written in hours, minutes and seconds, or in one smaller
unit below a second, and read as a sum of numbers with units.
-/

namespace TagLoom

/-- A span of time in nanoseconds; it may be negative. -/
abbrev Duration := Int

namespace Duration

def microsecond : Nat := 1000

def millisecond : Nat := 1000000

def second : Nat := 1000000000

def minute : Nat := 60 * second

def hour : Nat := 60 * minute

/-! ## Writing -/

/-- A count of a unit that is `10 ^ places` times finer, without trailing zeros. -/
def decimal (places n : Nat) : Bytes :=
  let unit := Nat.pow 10 places
  let digits := Bytes.ofNat (n % unit)
  let padded := Bytes.fill (places - digits.length) '0'.toUInt8 ++ digits
  let fraction := Bytes.trimRightWhere (· == '0'.toUInt8) padded
  Bytes.ofNat (n / unit) ++ Bytes.when (!fraction.isEmpty) ("." ++ fraction)

def positive (n : Nat) : Bytes :=
  if n == 0 then "0s"
  else if n < microsecond then Bytes.ofNat n ++ "ns"
  else if n < millisecond then decimal 3 n ++ "µs"
  else if n < second then decimal 6 n ++ "ms"
  else
    Bytes.when (n ≥ hour) (Bytes.ofNat (n / hour) ++ "h") ++
    Bytes.when (n ≥ minute) (Bytes.ofNat (n / minute % 60) ++ "m") ++
    decimal 9 (n % minute) ++ "s"

def toBytes (d : Duration) : Bytes := Bytes.when (d < 0) "-" ++ positive d.natAbs

end Duration

/-- Why a text spells no span of time. -/
inductive DurationFlaw where
  | malformed
  | noUnit
  | unknownUnit (unit : Bytes)
deriving DecidableEq

namespace DurationFlaw

def quoted (s : Bytes) : Bytes :=
  "\"" ++ s.flatMap (fun c =>
    if c < 0x20 || c ≥ 0x80 then Bytes.ofString "\\x" ++ Bytes.hex 2 c.toNat
    else if c == '"'.toUInt8 || c == '\\'.toUInt8 then ['\\'.toUInt8, c]
    else [c]) ++ "\""

def message (text : Bytes) : DurationFlaw → Bytes
  | .malformed => "time: invalid duration " ++ quoted text
  | .noUnit => "time: missing unit in duration " ++ quoted text
  | .unknownUnit unit => "time: unknown unit " ++ quoted unit ++ " in duration " ++ quoted text

end DurationFlaw

namespace Duration

/-! ## Reading -/

def unit? (s : Bytes) : Option Nat :=
  (([("ns", 1), ("us", microsecond), ("µs", microsecond), ("μs", microsecond),
    ("ms", millisecond), ("s", second), ("m", minute), ("h", hour)] : List (String × Nat)).find?
      fun u => Bytes.ofString u.1 == s).map (·.2)

def largest : Nat := 9223372036854775808

def fractionDigits (digits : Bytes) : Nat × Nat :=
  let (n, places, _) := digits.foldl (fun (acc : Nat × Nat × Bool) c =>
    let (n, places, full) := acc
    let next := n * 10 + (c.toNat - 48)
    if full || n > (largest - 1) / 10 || next > largest then (n, places, true)
    else (next, places + 1, false)) (0, 0, false)
  (n, places)

def fractionOf (unit : Nat) (digits : Bytes) : Nat :=
  let (n, places) := fractionDigits digits
  (Float.ofNat n * (Float.ofNat unit / Float.ofNat (Nat.pow 10 places))).toUInt64.toNat

def term (s : Bytes) : Except DurationFlaw (Nat × Bytes) := do
  let whole := s.takeWhile Bytes.isDigit
  let s := s.dropWhile Bytes.isDigit
  let (fraction, s) := if s.head? == some '.'.toUInt8
    then ((s.drop 1).takeWhile Bytes.isDigit, (s.drop 1).dropWhile Bytes.isDigit) else ([], s)
  let n := (Decimal.readNat? 10 whole).getD 0
  if (whole.isEmpty && fraction.isEmpty) || n > largest then throw .malformed
  let isUnitByte := fun (c : UInt8) => c != '.'.toUInt8 && !Bytes.isDigit c
  let name := s.takeWhile isUnitByte
  if name.isEmpty then throw .noUnit
  match unit? name with
  | none => throw (.unknownUnit name)
  | some unit =>
      let total := n * unit + (if fraction.isEmpty then 0 else fractionOf unit fraction)
      if total > largest then throw .malformed
      return (total, s.drop name.length)

/-- The sum of numbers with units.  The count bounds the number of terms. -/
def terms : Nat → Nat → Bytes → Except DurationFlaw Nat
  | _, sum, [] => .ok sum
  | 0, _, _ => .error .malformed
  | fuel + 1, sum, s => do
      let (n, rest) ← term s
      if sum + n > largest then throw .malformed
      terms fuel (sum + n) rest

def read (s : Bytes) : Except DurationFlaw Duration := do
  let (negative, body) := Decimal.cutSign s
  if body == Bytes.ofString "0" then return 0
  if body.isEmpty then throw .malformed
  let n ← terms body.length 0 body
  if negative then return -(n : Int)
  if n ≥ largest then throw .malformed
  return n

/-- The span of time a text spells, if it spells one. -/
def parse? (s : Bytes) : Option Duration := (read s).toOption

end Duration

end TagLoom

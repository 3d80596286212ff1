import TagLoom.Bytes

/-!
# Base 64

Bytes as digits of six bits each, four digits for three bytes, filled up with equals signs.
-/

namespace TagLoom.Base64

def digit (n : Nat) : UInt8 :=
  if n < 26 then (65 + n).toUInt8 else if n < 52 then (71 + n).toUInt8
  else if n < 62 then (n - 4).toUInt8 else if n == 62 then '+'.toUInt8 else '/'.toUInt8

def value? (c : UInt8) : Option Nat :=
  if Bytes.isUpper c then some (c.toNat - 65) else if Bytes.isLower c then some (c.toNat - 71)
  else if Bytes.isDigit c then some (c.toNat + 4) else if c == '+'.toUInt8 then some 62
  else if c == '/'.toUInt8 then some 63 else none

def fill : UInt8 := '='.toUInt8

def encode : Bytes → Bytes
  | [] => []
  | [a] => [digit (a.toNat / 4), digit (a.toNat % 4 * 16), fill, fill]
  | [a, b] =>
      [digit (a.toNat / 4), digit (a.toNat % 4 * 16 + b.toNat / 16), digit (b.toNat % 16 * 4), fill]
  | a :: b :: c :: rest =>
      digit (a.toNat / 4) :: digit (a.toNat % 4 * 16 + b.toNat / 16) ::
        digit (b.toNat % 16 * 4 + c.toNat / 64) :: digit (c.toNat % 64) :: encode rest

def ofDigits : List Nat → Bytes
  | a :: b :: c :: d :: rest =>
      (a * 4 + b / 16).toUInt8 :: (b % 16 * 16 + c / 4).toUInt8 :: (c % 4 * 64 + d).toUInt8 :: ofDigits rest
  | [a, b, c] => [(a * 4 + b / 16).toUInt8, (b % 16 * 16 + c / 4).toUInt8]
  | [a, b] => [(a * 4 + b / 16).toUInt8]
  | _ => []

/-- The bytes a text spells; what is no digit is passed over. -/
def decode (s : Bytes) : Bytes := ofDigits (s.filterMap value?)

/-- The bytes a text spells, if it is their one spelling; line ends in it do not count. -/
def decode? (s : Bytes) : Option Bytes :=
  let digits := s.filter fun c => c != 10 && c != 13
  let bytes := decode digits
  if encode bytes == digits then some bytes else none

end TagLoom.Base64

import TagLoom.Bytes.Utf8
import TagLoom.Unicode.Printable

/-!
# Quoted texts

A text between double quotes on one line.  Printable characters stand for
themselves; quotes, backslashes and everything else are escaped, so a quoted text
can be shown in a message or used as a literal in generated source.
-/

namespace TagLoom.Bytes

def hexDigit (n : Nat) : UInt8 := if n < 10 then (48 + n).toUInt8 else (87 + n).toUInt8

/-- A number in lower-case hexadecimal, padded with zeros to a width. -/
def hex (width n : Nat) : Bytes :=
  let digits := (Nat.toDigits 16 n).map fun c => c.toUInt8
  fill (width - digits.length) 48 ++ digits

def letterEscape? (r : Nat) : Option UInt8 :=
  if r == 7 then some 'a'.toUInt8
  else if r == 8 then some 'b'.toUInt8
  else if r == 12 then some 'f'.toUInt8
  else if r == 10 then some 'n'.toUInt8
  else if r == 13 then some 'r'.toUInt8
  else if r == 9 then some 't'.toUInt8
  else if r == 11 then some 'v'.toUInt8
  else none

def quoteRune (mark : Nat) (r : Nat) (spelled : Bytes) : Bytes :=
  if r == Utf8.replacement && spelled.length == 1 then
    "\\x" ++ hex 2 (spelled.headD 0).toNat
  else if r == mark || r == 0x5C then 0x5C :: Utf8.encode r
  else if Unicode.isPrintable r then spelled
  else match letterEscape? r with
    | some c => [0x5C, c]
    | none =>
        if r < 0x20 || r == 0x7F then "\\x" ++ hex 2 r
        else if r < 0x10000 then "\\u" ++ hex 4 r
        else "\\U" ++ hex 8 r

def quoteInner (mark : Nat) : Bytes → Bytes
  | [] => []
  | c :: rest =>
      let (r, size) := Utf8.decode (c :: rest)
      quoteRune mark r ((c :: rest).take size) ++ quoteInner mark (rest.drop (size - 1))
  termination_by s => s.length
  decreasing_by simp only [List.length_drop, List.length_cons]; omega

def quote (s : Bytes) : Bytes := "\"" ++ quoteInner 0x22 s ++ "\""

end TagLoom.Bytes

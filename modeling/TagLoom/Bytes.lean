/-!
# Byte texts

Template sources, names, messages and rendered pages are sequences of bytes: a
source file need not be valid UTF-8, and an expression may cut a text in the
middle of a character.  A text is therefore a list of bytes, and a string
literal stands for its UTF-8 form.
-/

namespace TagLoom

abbrev Bytes := List UInt8

namespace Bytes

def ofString (s : String) : Bytes := s.toUTF8.data.toList

instance : Coe String Bytes := ⟨ofString⟩

def ofNat (n : Nat) : Bytes := ofString (toString n)

/-- The decimal digits of an integer, with a leading minus when negative. -/
def ofInt (n : Int) : Bytes := ofString (toString n)

/-- The string a text spells, when the text is valid UTF-8. -/
def toString? (s : Bytes) : Option String := String.fromUTF8? ⟨s.toArray⟩

/-! ## Character classes of ASCII -/

def isDigit (c : UInt8) : Bool := '0'.toUInt8 ≤ c && c ≤ '9'.toUInt8

def isLower (c : UInt8) : Bool := 'a'.toUInt8 ≤ c && c ≤ 'z'.toUInt8

def isUpper (c : UInt8) : Bool := 'A'.toUInt8 ≤ c && c ≤ 'Z'.toUInt8

def isLetter (c : UInt8) : Bool := isLower c || isUpper c

/-- The lower-case form of an ASCII letter; other bytes stay. -/
def lowerByte (c : UInt8) : UInt8 := if isUpper c then c + 32 else c

/-- The upper-case form of an ASCII letter; other bytes stay. -/
def upperByte (c : UInt8) : UInt8 := if isLower c then c - 32 else c

def lowerAscii (s : Bytes) : Bytes := s.map lowerByte

def upperAscii (s : Bytes) : Bytes := s.map upperByte

/-! ## Searching -/

@[grind =] def startsWith (s start : Bytes) : Bool := start.isPrefixOf s

def endsWith (s ending : Bytes) : Bool := ending.isSuffixOf s

@[grind =] def indexOf? (s needle : Bytes) : Option Nat :=
  if startsWith s needle then some 0
  else match s with
    | [] => none
    | _ :: rest => (indexOf? rest needle).map (· + 1)

def includes (s needle : Bytes) : Bool := (indexOf? s needle).isSome

def indexWhere? (p : UInt8 → Bool) (s : Bytes) : Option Nat := s.findIdx? p

def lastIndexOf? (s : Bytes) (c : UInt8) : Option Nat :=
  (s.reverse.findIdx? (· == c)).map (s.length - 1 - ·)

def trimEnding (s ending : Bytes) : Bytes :=
  if endsWith s ending then s.take (s.length - ending.length) else s

def trimStart (s start : Bytes) : Bytes :=
  if startsWith s start then s.drop start.length else s

/-! ## Cutting and joining -/

def cut? (s sep : Bytes) : Option (Bytes × Bytes) :=
  (indexOf? s sep).map fun i => (s.take i, s.drop (i + sep.length))

/-- The parts between the occurrences of one byte; always at least one part. -/
@[grind =] def splitByte (sep : UInt8) : Bytes → List Bytes
  | [] => [[]]
  | c :: rest =>
      match splitByte sep rest with
      | [] => [[c]]
      | part :: parts => if c == sep then [] :: part :: parts else (c :: part) :: parts

/-- The parts between the occurrences of `sep`, read from the left.  The count
bounds the number of cuts; the length of the text is always enough. -/
def splitOnFuel (sep : Bytes) : Nat → Bytes → List Bytes
  | 0, s => [s]
  | fuel + 1, s =>
      match cut? s sep with
      | some (part, rest) => part :: splitOnFuel sep fuel rest
      | none => [s]

def splitOn (s sep : Bytes) : List Bytes := splitOnFuel sep s.length s

def fields (p : UInt8 → Bool) (s : Bytes) : List Bytes :=
  let (run, runs) := s.foldr (fun c (acc : Bytes × List Bytes) =>
    if p c then ([], if acc.1.isEmpty then acc.2 else acc.1 :: acc.2)
    else (c :: acc.1, acc.2)) ([], [])
  if run.isEmpty then runs else run :: runs

def join (sep : Bytes) (parts : List Bytes) : Bytes := (parts.intersperse sep).flatten

def concat (parts : List Bytes) : Bytes := parts.flatten

/-- The text with every occurrence of a non-empty `old` replaced by `new`. -/
def replaceAll (s old new : Bytes) : Bytes := join new (splitOn s old)

def trimWhere (p : UInt8 → Bool) (s : Bytes) : Bytes :=
  ((s.dropWhile p).reverse.dropWhile p).reverse

def trimRightWhere (p : UInt8 → Bool) (s : Bytes) : Bytes := (s.reverse.dropWhile p).reverse

def when (condition : Bool) (s : Bytes) : Bytes := if condition then s else []

def fill (n : Nat) (c : UInt8) : Bytes := List.replicate n c

def lines (s : Bytes) : List Bytes := splitByte '\n'.toUInt8 s

/-! ## Order -/

@[grind =] def lt : Bytes → Bytes → Bool
  | _, [] => false
  | [], _ :: _ => true
  | a :: as, b :: bs => a < b || (a == b && lt as bs)

@[grind =] def le (a b : Bytes) : Bool := !lt b a

def sort (texts : List Bytes) : List Bytes := texts.mergeSort le

def dedup (texts : List Bytes) : List Bytes :=
  texts.foldl (fun seen t => if seen.contains t then seen else seen ++ [t]) []

end Bytes

end TagLoom

import TagLoom.Bytes

/-!
# UTF-8 in byte texts

Reading a byte text character by character.  A byte that does not start a
well-formed sequence is read alone and stands for the replacement character, so
reading never fails and every text has a character count.
-/

namespace TagLoom.Utf8

abbrev Rune := Nat

def replacement : Rune := 0xFFFD

def isContinuation (c : UInt8) : Bool := 0x80 ≤ c && c ≤ 0xBF

def secondRange (first : UInt8) : UInt8 × UInt8 :=
  if first == 0xE0 then (0xA0, 0xBF)
  else if first == 0xED then (0x80, 0x9F)
  else if first == 0xF0 then (0x90, 0xBF)
  else if first == 0xF4 then (0x80, 0x8F)
  else (0x80, 0xBF)

/-- The code point at the start of a non-empty text and the number of bytes that
spell it. -/
@[grind =] def decode : Bytes → Rune × Nat
  | [] => (replacement, 0)
  | c :: rest =>
      let bad := (replacement, 1)
      if c < 0x80 then (c.toNat, 1)
      else if c < 0xC2 || c > 0xF4 then bad
      else
        let (low, high) := secondRange c
        match rest with
        | [] => bad
        | c₁ :: rest =>
            if c₁ < low || c₁ > high then bad
            else if c < 0xE0 then ((c.toNat - 0xC0) * 64 + (c₁.toNat - 0x80), 2)
            else match rest with
              | [] => bad
              | c₂ :: rest =>
                  if !isContinuation c₂ then bad
                  else if c < 0xF0 then
                    ((c.toNat - 0xE0) * 4096 + (c₁.toNat - 0x80) * 64 + (c₂.toNat - 0x80), 3)
                  else match rest with
                    | [] => bad
                    | c₃ :: _ =>
                        if !isContinuation c₃ then bad
                        else ((c.toNat - 0xF0) * 262144 + (c₁.toNat - 0x80) * 4096
                          + (c₂.toNat - 0x80) * 64 + (c₃.toNat - 0x80), 4)

/-- The code points of a text, each with the number of bytes that spell it. -/
@[grind =] def scan : Bytes → List (Rune × Nat)
  | [] => []
  | c :: rest =>
      let r := decode (c :: rest)
      r :: scan (rest.drop (r.2 - 1))
  termination_by s => s.length
  decreasing_by simp only [List.length_drop, List.length_cons]; omega

/-- A character of a text: its code point and the bytes that spell it. -/
structure Cell where
  rune : Rune
  spelled : Bytes
deriving DecidableEq

@[grind =] def cells : Bytes → List Cell
  | [] => []
  | c :: rest =>
      let (r, size) := decode (c :: rest)
      ⟨r, c :: rest.take (size - 1)⟩ :: cells (rest.drop (size - 1))
  termination_by s => s.length
  decreasing_by simp only [List.length_drop, List.length_cons]; omega

def runes (s : Bytes) : List Rune := (scan s).map (·.1)

/-- The number of characters of a text; an ill-formed byte counts as one. -/
def count (s : Bytes) : Nat := (scan s).length

def isSurrogate (r : Rune) : Bool := 0xD800 ≤ r && r ≤ 0xDFFF

/-- The bytes that spell a code point; a value that is none is spelled as the
replacement character. -/
def encode (r : Rune) : Bytes :=
  if r < 0x80 then [r.toUInt8]
  else if r < 0x800 then [(0xC0 + r / 64).toUInt8, (0x80 + r % 64).toUInt8]
  else if isSurrogate r || r > 0x10FFFF then [0xEF, 0xBF, 0xBD]
  else if r < 0x10000 then
    [(0xE0 + r / 4096).toUInt8, (0x80 + r / 64 % 64).toUInt8, (0x80 + r % 64).toUInt8]
  else [(0xF0 + r / 262144).toUInt8, (0x80 + r / 4096 % 64).toUInt8,
    (0x80 + r / 64 % 64).toUInt8, (0x80 + r % 64).toUInt8]

def ofRunes (rs : List Rune) : Bytes := (rs.map encode).flatten

/-- Whether every byte belongs to a well-formed sequence. -/
def isValid (s : Bytes) : Bool := (scan s).all fun (r, size) => !(r == replacement && size == 1)

def toValid (s : Bytes) : Bytes := ofRunes (runes s)

end TagLoom.Utf8

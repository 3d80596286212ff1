import TagLoom.Path
import TagLoom.Bytes.Utf8

/-!
# Globs

Patterns for names: `*` stands for any text without a slash, `?` for one character that is no
slash, `[a-c]` and `[^a-c]` for one character of a class, and a backslash takes the next character
as it is.

A pattern is a list of chunks, each of which may come after a star.  A chunk takes the first place
where it fits; earlier choices are not taken back.
-/

namespace TagLoom

inductive GlobAtom where
  | byte (c : UInt8)
  /-- One character other than a slash. -/
  | any
  /-- One character in one of the ranges, or in none of them. -/
  | oneOf (negated : Bool) (ranges : List (Nat × Nat))
deriving DecidableEq

/-- Atoms that stand next to each other, perhaps after a star. -/
structure GlobChunk where
  star : Bool
  atoms : List GlobAtom
deriving DecidableEq

abbrev Glob := List GlobChunk

namespace Glob

/-! ## Reading -/

def chunkLength (inClass : Bool) : Bytes → Nat
  | [] => 0
  | c :: rest =>
      if c == '*'.toUInt8 && !inClass then 0
      else if c == '\\'.toUInt8 then
        match rest with
        | [] => 1
        | _ :: after => 2 + chunkLength inClass after
      else
        1 + chunkLength (if c == '['.toUInt8 then true else if c == ']'.toUInt8 then false else inClass)
          rest

/-- One bound of a range, and what follows; a class never ends in a bound. -/
def bound? (s : Bytes) : Option (Nat × Bytes) :=
  match s with
  | [] => none
  | c :: rest =>
      if c == '-'.toUInt8 || c == ']'.toUInt8 then none
      else
        let s := if c == '\\'.toUInt8 then rest else c :: rest
        let (r, size) := Utf8.decode s
        if size == 0 || (r == Utf8.replacement && size == 1) then none
        else
          let after := s.drop size
          if after.isEmpty then none else some (r, after)

/-- The ranges of a class up to its bracket, and what follows.  The count bounds the number of
ranges. -/
def ranges? : Nat → List (Nat × Nat) → Bytes → Option (List (Nat × Nat) × Bytes)
  | 0, _, _ => none
  | fuel + 1, seen, s =>
      if s.head? == some ']'.toUInt8 && !seen.isEmpty then some (seen, s.drop 1)
      else do
        let (low, s) ← bound? s
        let (high, s) ← if s.head? == some '-'.toUInt8 then bound? (s.drop 1) else some (low, s)
        ranges? fuel (seen ++ [(low, high)]) s

def atoms? : Nat → Bytes → Option (List GlobAtom)
  | _, [] => some []
  | 0, _ => none
  | fuel + 1, c :: rest =>
      if c == '['.toUInt8 then do
        let negated := rest.head? == some '^'.toUInt8
        let (ranges, after) ← ranges? (rest.length + 1) [] (if negated then rest.drop 1 else rest)
        let more ← atoms? fuel after
        return .oneOf negated ranges :: more
      else if c == '?'.toUInt8 then (atoms? fuel rest).map (.any :: ·)
      else if c == '\\'.toUInt8 then
        match rest with
        | [] => none
        | e :: after => (atoms? fuel after).map (.byte e :: ·)
      else (atoms? fuel rest).map (.byte c :: ·)

def chunks? : Nat → Bytes → Option Glob
  | _, [] => some []
  | 0, _ => none
  | fuel + 1, s => do
      let solid := s.dropWhile (· == '*'.toUInt8)
      let n := chunkLength false solid
      let atoms ← atoms? (n + 1) (solid.take n)
      let more ← chunks? fuel (solid.drop n)
      return ⟨solid.length < s.length, atoms⟩ :: more

/-- The glob a text spells; none when a class is not closed, a range has no end, or the text ends in
a backslash. -/
def parse? (s : Bytes) : Option Glob := chunks? (s.length + 1) s

/-! ## Matching -/

def atomsRest? : List GlobAtom → Bytes → Option Bytes
  | [], s => some s
  | _ :: _, [] => none
  | .byte c :: as, d :: s => if c == d then atomsRest? as s else none
  | .any :: as, d :: s =>
      if d == Path.slash then none else atomsRest? as ((d :: s).drop (Utf8.decode (d :: s)).2)
  | .oneOf negated ranges :: as, d :: s =>
      let (r, size) := Utf8.decode (d :: s)
      if ranges.any (fun (low, high) => low ≤ r && r ≤ high) == negated then none
      else atomsRest? as ((d :: s).drop size)

/-- What is left of a name after the first place where a chunk fits, no slash being passed over.
The last chunk has to take all that is left. -/
def starRest? (atoms : List GlobAtom) (last : Bool) : Bytes → Option Bytes
  | [] => none
  | c :: s =>
      if c == Path.slash then none
      else match atomsRest? atoms s with
        | some rest => if last && !rest.isEmpty then starRest? atoms last s else some rest
        | none => starRest? atoms last s

def isMatch : Glob → Bytes → Bool
  | [], s => s.isEmpty
  | chunk :: more, s =>
      if chunk.star && chunk.atoms.isEmpty then !s.contains Path.slash
      else
        let here := match atomsRest? chunk.atoms s with
          | some rest => if more.isEmpty && !rest.isEmpty then none else some rest
          | none => none
        match here with
        | some rest => isMatch more rest
        | none =>
            match if chunk.star then starRest? chunk.atoms more.isEmpty s else none with
            | some rest => isMatch more rest
            | none => false

def fits (pattern name : Bytes) : Bool := ((parse? pattern).map fun g => isMatch g name).getD false

def isValid (pattern : Bytes) : Bool := (parse? pattern).isSome

end Glob

end TagLoom

import TagLoom.Diagnostic
import TagLoom.Unicode.Category
import TagLoom.Unicode.Case

/-!
# Suggestions

The known names closest to a misspelled one: what a matcher finds for it, or, when it finds nothing,
the names within two edits.

The matcher in use finds the names that contain the letters of the misspelled one in order and scores
them by how well they line up.
-/

namespace TagLoom.Suggestion

open Utf8 (Rune)

def limit : Nat := 3

/-! ## Letters in order -/

def sameLetter (a b : Rune) : Bool := Unicode.foldCase a == Unicode.foldCase b

def isSeparator (r : Rune) : Bool := [0x2F, 0x2D, 0x5F, 0x20, 0x2E, 0x5C].contains r

/-- The state of lining up a pattern with a name: letters still to place, offsets of the
placed ones, the score so far, and the best place seen for the letter at hand. -/
structure Alignment where
  pattern : List Rune
  placed : List Nat
  score : Int
  best : Int
  bestAt : Option Nat
  run : Int
  last : Rune
  lastAt : Nat

/-- The bonus of a letter that matches at an offset, and the bonus for being next to the
letter placed before it. -/
def matchBonus (st : Alignment) (candidate : Rune) (offset : Nat) : Int × Int :=
  let adjacent : Int :=
    match st.placed with
    | p :: _ => if p == st.lastAt then st.run * 2 + 5 else 0
    | [] => 0
  let bonus : Int := (if offset == 0 then 10 else 0) +
    (if Unicode.isLower st.last && Unicode.isUpper candidate then 20 else 0) +
    (if offset != 0 && isSeparator st.last then 20 else 0)
  (bonus + adjacent, adjacent)

def alignStep (st : Alignment) (candidate : Rune) (offset : Nat) (next : Option Rune) :
    Alignment :=
  let st :=
    match st.pattern with
    | p :: _ =>
        if sameLetter candidate p then
          let (score, adjacent) := matchBonus st candidate offset
          let st := { st with run := st.run + adjacent }
          if score > st.best then { st with best := score, bestAt := some offset } else st
        else st
    | [] => st
  let due :=
    match next, st.pattern with
    | none, _ => true
    | some n, _ :: p :: _ => sameLetter p n
    | some n, _ => n == 0
  let st :=
    match due, st.bestAt with
    | true, some i =>
        let penalty : Int := if st.placed.isEmpty then max (-5 * Int.ofNat i) (-15) else 0
        { st with score := st.score + st.best + penalty, placed := i :: st.placed, best := -1,
                  pattern := st.pattern.drop 1 }
    | _, _ => st
  { st with last := candidate, lastAt := offset }

def alignFrom (st : Alignment) (offset : Nat) : List (Rune × Nat) → Alignment
  | [] => st
  | (r, size) :: rest =>
      alignFrom (alignStep st r offset (rest.head?.map (·.1))) (offset + size) rest

def score? (pattern name : Bytes) : Option Int :=
  let letters := Utf8.runes pattern
  let st := alignFrom ⟨letters, [], 0, -1, none, 0, 0, 0⟩ 0 (Utf8.scan name)
  if st.placed.length == letters.length then
    some (st.score + Int.ofNat st.placed.length - Int.ofNat name.length)
  else none

/-- The names that have the letters of a pattern in order, best first; of equal ones the later
comes first. -/
def inOrder (pattern : Bytes) (names : List Bytes) : List Bytes :=
  let scored := names.reverse.filterMap fun n => (score? pattern n).map (·, n)
  (scored.mergeSort fun a b => a.1 ≥ b.1).map (·.2)

/-! ## Edit distance -/

def rowCells (x : Rune) (left : Nat) : List Rune → List Nat → List Nat
  | y :: ys, diagonal :: above :: rest =>
      let cell := min (min (above + 1) (left + 1)) (diagonal + if x == y then 0 else 1)
      cell :: rowCells x cell ys (above :: rest)
  | _, _ => []

def nextRow (ys : List Rune) (row : List Nat) (x : Rune) : List Nat :=
  let first := row.headD 0 + 1
  first :: rowCells x first ys row

/-- The least number of insertions, deletions and substitutions of characters that turn one
text into another. -/
def editDistance (a b : Bytes) : Nat :=
  let ys := Utf8.runes b
  ((Utf8.runes a).foldl (nextRow ys) (List.range (ys.length + 1))).getLastD 0

def maxEdits : Nat := 2

def nearby (name : Bytes) (names : List Bytes) : List Bytes :=
  let scored := names.filterMap fun n =>
    let d := editDistance name n
    if d ≤ maxEdits then some (d, n) else none
  (scored.mergeSort fun a b => a.1 < b.1 || (a.1 == b.1 && Bytes.le a.2 b.2)).map (·.2)

/-- What finds the names that match a text, best first. -/
abbrev Matcher := Bytes → List Bytes → List Bytes

/-- Up to three names closest to a misspelled one, best first. -/
def suggestBy (find : Matcher) (name : Bytes) (names : List Bytes) : List Bytes :=
  if name.isEmpty then []
  else
    let found :=
      match find name names with
      | [] => nearby name names
      | ns => ns
    (found.filter (· != name)).take limit

def suggest : Bytes → List Bytes → List Bytes := suggestBy inOrder

end TagLoom.Suggestion

namespace TagLoom.Diagnostic

def suggesting (d : Diagnostic) (name : Bytes) (names : List Bytes) : Diagnostic :=
  { d with suggestions := Suggestion.suggest name names }

end TagLoom.Diagnostic

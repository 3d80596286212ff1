import TagLoom.Bytes.Utf8

/-!
# White space

The code points of the property White Space, and trimming texts of them.  Tables of text are filled
up with it: every cell but the last of a row to the width of its column, which is that of its longest
cell and two blanks.
-/

namespace TagLoom.Unicode

def isSpace (r : Nat) : Bool :=
  (0x09 ≤ r && r ≤ 0x0D) || r == 0x20 || r == 0x85 || r == 0xA0 || r == 0x1680 ||
    (0x2000 ≤ r && r ≤ 0x200A) || r == 0x2028 || r == 0x2029 || r == 0x202F || r == 0x205F ||
    r == 0x3000

def leadingSpace (s : Bytes) : Nat :=
  ((Utf8.scan s).takeWhile fun (r, _) => isSpace r).foldl (fun n cell => n + cell.2) 0

/-- The number of bytes up to the end of the last character that is no white
space. -/
def solidLength (s : Bytes) : Nat :=
  ((Utf8.scan s).reverse.dropWhile fun (r, _) => isSpace r).foldl (fun n cell => n + cell.2) 0

def trim (s : Bytes) : Bytes := (s.take (solidLength s)).drop (leadingSpace s)

def words (s : Bytes) : List Bytes :=
  let (_, done, run) := (Utf8.scan s).foldl
    (fun (acc : Bytes × List Bytes × Bytes) (c : Nat × Nat) =>
      let (rest, done, run) := acc
      let (r, size) := c
      if isSpace r then (rest.drop size, if run.isEmpty then done else done ++ [run], [])
      else (rest.drop size, done, run ++ rest.take size))
    (s, [], [])
  if run.isEmpty then done else done ++ [run]

end TagLoom.Unicode

/-! ## Tables of text -/

namespace TagLoom.TextTable

def gap : Nat := 2

def columnWidth (rows : List (List Bytes)) (column : Nat) : Nat :=
  (rows.map fun row => Utf8.count (row.getD column [])).foldl max 0

def fillTo (width : Nat) (s : Bytes) : Bytes := s ++ Bytes.fill (width - Utf8.count s) 32

def line (rows : List (List Bytes)) (column : Nat) : List Bytes → Bytes
  | [] => "\n"
  | [cell] => cell ++ "\n"
  | cell :: cells => fillTo (columnWidth rows column + gap) cell ++ line rows (column + 1) cells

def print (rows : List (List Bytes)) : Bytes := rows.flatMap (line rows 0)

end TagLoom.TextTable

import TagLoom.Bytes

/-!
# Paths

Slash-separated paths.  A cleaned path is a root flag and the components that are left once
empty ones and `.` are dropped and every `..` has cancelled the component before it.
-/

namespace TagLoom

/-- A path without empty components, `.`, or a `..` that could be cancelled. -/
structure Path where
  rooted : Bool
  parts : List Bytes
deriving DecidableEq, Inhabited

namespace Path

def slash : UInt8 := '/'.toUInt8

def up : Bytes := ".."

/-- Puts a component on a stack of components, the last one first. -/
def push (rooted : Bool) (stack : List Bytes) (part : Bytes) : List Bytes :=
  if part.isEmpty || part == Bytes.ofString "." then stack
  else if part == up then
    match stack with
    | [] => if rooted then [] else [up]
    | top :: below => if top == up then up :: stack else below
  else part :: stack

@[grind =] def components (s : Bytes) : List Bytes := Bytes.splitByte slash s

def isAbsolute (s : Bytes) : Bool := s.head? == some slash

def ofBytes (s : Bytes) : Path :=
  let rooted := isAbsolute s
  ⟨rooted, ((components s).foldl (push rooted) []).reverse⟩

def toBytes (p : Path) : Bytes :=
  if p.rooted then slash :: Bytes.join [slash] p.parts
  else if p.parts.isEmpty then "." else Bytes.join [slash] p.parts

def clean (s : Bytes) : Bytes := (ofBytes s).toBytes

/-- A path below a directory; empty texts are left out. -/
def join (dir name : Bytes) : Bytes :=
  if dir.isEmpty then (if name.isEmpty then [] else clean name)
  else if name.isEmpty then clean dir
  else clean (dir ++ slash :: name)

def base (s : Bytes) : Bytes :=
  if s.isEmpty then "."
  else
    let solid := Bytes.trimRightWhere (· == slash) s
    if solid.isEmpty then [slash] else (components solid).getLastD []

def directory (s : Bytes) : Bytes :=
  match Bytes.lastIndexOf? s slash with
  | some i => clean (s.take (i + 1))
  | none => "."

@[grind =] def dropShared : List Bytes → List Bytes → List Bytes × List Bytes
  | a :: as, b :: bs => if a == b then dropShared as bs else (a :: as, b :: bs)
  | as, bs => (as, bs)

/-- The path that leads from a directory to a target; none when only one of them is rooted or the
way up is not known. -/
def relative? (dir target : Bytes) : Option Path :=
  let d := ofBytes dir
  let t := ofBytes target
  if d.rooted != t.rooted then none
  else
    let (above, below) := dropShared d.parts t.parts
    if above.head? == some up then none
    else some ⟨false, above.map (fun _ => up) ++ below⟩

def leavesRoot (p : Path) : Bool := p.parts.head? == some up

end Path

end TagLoom

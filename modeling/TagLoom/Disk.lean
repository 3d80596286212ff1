import TagLoom.FileTree

/-!
# Disks

A working directory with a file tree in it, and the operations programs use on it.  Paths are
followed name by name, through links; what lies outside of the working directory is not there.
-/

namespace TagLoom

inductive DiskError where
  | missing
  | notDirectory
  | isDirectory
  | taken
  | tooManyLinks
deriving DecidableEq

def DiskError.message : DiskError → Bytes
  | .missing => "no such file or directory"
  | .notDirectory => "not a directory"
  | .isDirectory => "is a directory"
  | .taken => "file exists"
  | .tooManyLinks => "too many levels of symbolic links"

/-- The tree in the working directory, and the name of that directory. -/
structure Disk where
  workingDir : Bytes
  tree : FileTree
deriving Inhabited

namespace Disk

/-- Follows names from a place in a tree up to a link that has to be followed; `onLink` goes on from
there.  The last name is followed through a link only if asked. -/
def followTo (tree : FileTree) (throughLast : Bool)
    (onLink : List Bytes → List Bytes → Except DiskError (List Bytes × FileTree)) :
    List Bytes → List Bytes → Except DiskError (List Bytes × FileTree)
  | place, [] =>
      match tree.at? place with
      | none => .error .missing
      | some t => .ok (place, t)
  | place, name :: rest =>
      match tree.at? place with
      | none => .error .missing
      | some (.dir es) =>
          if name.isEmpty || name == Bytes.ofString "." then
            followTo tree throughLast onLink place rest
          else if name == Path.up then
            if place.isEmpty then .error .missing
            else followTo tree throughLast onLink place.dropLast rest
          else match FileTree.Entries.get? es name with
            | none => .error .missing
            | some (.link target) =>
                if rest.isEmpty && !throughLast then .ok (place ++ [name], .link target)
                else if Path.isAbsolute target then .error .missing
                else onLink place (Path.components target ++ rest)
            | some _ => followTo tree throughLast onLink (place ++ [name]) rest
      | some _ => .error .notDirectory

/-- Follows names from a place in a tree, through as many links as the count says. -/
def follow (tree : FileTree) (throughLast : Bool) :
    Nat → List Bytes → List Bytes → Except DiskError (List Bytes × FileTree)
  | 0 => followTo tree throughLast fun _ _ => .error .tooManyLinks
  | links + 1 => followTo tree throughLast (follow tree throughLast links)

def maxLinks : Nat := 40

/-- The names that lead to a path from the working directory.  A path that starts with the name of
that directory leads into it. -/
def names? (d : Disk) (path : Bytes) : Option (List Bytes) :=
  if path.isEmpty then none
  else if Bytes.startsWith (path ++ "/") (d.workingDir ++ "/") then
    some (Path.components (path.drop d.workingDir.length))
  else if Path.isAbsolute path then none
  else some (Path.components path)

def resolve (d : Disk) (throughLast : Bool) (path : Bytes) :
    Except DiskError (List Bytes × FileTree) :=
  match d.names? path with
  | none => .error .missing
  | some names => follow d.tree throughLast maxLinks [] names

def stat (d : Disk) (path : Bytes) : Except DiskError FileTree := (d.resolve true path).map (·.2)

def lstat (d : Disk) (path : Bytes) : Except DiskError FileTree := (d.resolve false path).map (·.2)

def read (d : Disk) (path : Bytes) : Except DiskError Bytes := do
  match ← d.stat path with
  | .file content => return content
  | _ => throw .isDirectory

def absolute (d : Disk) (path : Bytes) : Bytes :=
  if Path.isAbsolute path then Path.clean path else Path.join d.workingDir path

def parent (d : Disk) (path : Bytes) : Except DiskError (List Bytes × FileTree × Bytes) :=
  match d.names? path with
  | none => .error .missing
  | some names => do
      let (place, t) ← follow d.tree true maxLinks [] names.dropLast
      return (place, t, names.getLastD [])

def write (d : Disk) (path content : Bytes) : Except DiskError Disk := do
  let (place, t, name) ← d.parent path
  match t with
  | .dir es =>
      if name.isEmpty || name == Bytes.ofString "." || name == Path.up then throw .isDirectory
      match FileTree.Entries.get? es name with
      | some (.dir _) => throw .isDirectory
      | some (.link _) =>
          let (target, there) ← d.resolve true path
          if there.isDir then throw .isDirectory
          return { d with tree := FileTree.put (.file content) target d.tree }
      | _ => return { d with tree := FileTree.put (.file content) (place ++ [name]) d.tree }
  | _ => throw .notDirectory

/-- Takes away a file or a link, or whatever a path names. -/
def erase (d : Disk) (path : Bytes) : Disk :=
  match d.resolve false path with
  | .ok (place, _) => { d with tree := FileTree.erase place d.tree }
  | .error _ => d

def mkdir (d : Disk) (path : Bytes) : Except DiskError Disk := do
  let (place, t, name) ← d.parent (Bytes.trimRightWhere (· == Path.slash) path)
  match t with
  | .dir es =>
      if name.isEmpty || name == Bytes.ofString "." || name == Path.up then throw .taken
      if (FileTree.Entries.get? es name).isSome then throw .taken
      return { d with tree := FileTree.put .empty (place ++ [name]) d.tree }
  | _ => throw .notDirectory

def parentText (path : Bytes) : Bytes :=
  ((path.reverse.dropWhile (· == Path.slash)).dropWhile (· != Path.slash)).reverse

/-- Makes a directory and the ones above it.  The error says which path it is about.  The count
bounds the depth. -/
def mkdirAllWithin : Nat → Disk → Bytes → Except (Bytes × DiskError) Disk
  | 0, _, path => .error (path, .missing)
  | fuel + 1, d, path =>
      match d.stat path with
      | .ok t => if t.isDir then .ok d else .error (path, .notDirectory)
      | .error _ => do
          let above := parentText path
          let d ← if above.isEmpty then pure d else mkdirAllWithin fuel d above
          match d.mkdir path with
          | .ok d => return d
          | .error e =>
              match d.lstat path with
              | .ok (.dir _) => return d
              | _ => throw (path, e)

def mkdirAll (d : Disk) (path : Bytes) : Except (Bytes × DiskError) Disk :=
  mkdirAllWithin (path.length + 1) d path

def filesBelow (d : Disk) (path : Bytes) : List (Bytes × Bytes) :=
  match d.lstat path with
  | .ok t => t.files path
  | .error _ => []

end Disk

end TagLoom

import TagLoom.Path

/-!
# File trees

Directories, files and links as a value.  The entries of a directory are in the order of their names
and no two have one name.
-/

namespace TagLoom

inductive FileTree where
  | file (content : Bytes)
  | link (target : Bytes)
  | dir (entries : List (Bytes × FileTree))
deriving Inhabited

namespace FileTree

abbrev Entries := List (Bytes × FileTree)

def empty : FileTree := .dir []

def isDir : FileTree → Bool
  | .dir _ => true
  | _ => false

namespace Entries

def get? (es : Entries) (name : Bytes) : Option FileTree := (es.find? (·.1 == name)).map (·.2)

/-- Puts an entry where its name belongs; an entry of the same name gives way. -/
@[grind =] def insert (name : Bytes) (t : FileTree) : Entries → Entries
  | [] => [(name, t)]
  | (n, u) :: es =>
      if n == name then (name, t) :: es
      else if Bytes.lt name n then (name, t) :: (n, u) :: es
      else (n, u) :: insert name t es

@[grind =] def erase (name : Bytes) (es : Entries) : Entries := es.filter (·.1 != name)

end Entries

/-- What stands at the end of a list of names; links are not followed. -/
def at? : FileTree → List Bytes → Option FileTree
  | t, [] => some t
  | .dir es, name :: names =>
      match Entries.get? es name with
      | some t => t.at? names
      | none => none
  | _, _ :: _ => none

/-- Puts a tree at the end of a list of names.  Directories on the way are made; what is no
directory gives way to one. -/
@[grind =] def put (new : FileTree) : List Bytes → FileTree → FileTree
  | [], _ => new
  | name :: names, .dir es =>
      .dir (Entries.insert name (put new names ((Entries.get? es name).getD empty)) es)
  | name :: names, _ => .dir [(name, put new names empty)]

def erase : List Bytes → FileTree → FileTree
  | [], t => t
  | [name], .dir es => .dir (Entries.erase name es)
  | name :: names, .dir es =>
      match Entries.get? es name with
      | some t => .dir (Entries.insert name (erase names t) es)
      | none => .dir es
  | _, t => t

mutual

/-- A tree and all below it, each with its path; of directories below it, those that `skip` names
are passed over. -/
def visit (skip : Bytes → Bool) (path : Bytes) : FileTree → List (Bytes × FileTree)
  | .dir es => (path, .dir es) :: visitAll skip path es
  | t => [(path, t)]

def visitAll (skip : Bytes → Bool) (path : Bytes) : List (Bytes × FileTree) → List (Bytes × FileTree)
  | [] => []
  | (name, t) :: es =>
      (if t.isDir && skip name then [] else visit skip (Path.join path name) t) ++
        visitAll skip path es

end

def isHidden (name : Bytes) : Bool := name.head? == some '.'.toUInt8

def files (path : Bytes) (t : FileTree) : List (Bytes × Bytes) :=
  ((visit (fun _ => false) path t).filterMap fun (p, t) =>
    match t with
    | .file content => some (p, content)
    | _ => none).mergeSort fun a b => Bytes.le a.1 b.1

end FileTree

end TagLoom

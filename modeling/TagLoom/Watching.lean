import TagLoom.Discovery

/-!
# Watching

Which reports of the operating system are changes to templates.  A watcher knows the directories it
watches: it learns of new ones as they appear and forgets them when they go.
-/

namespace TagLoom

inductive ChangeKind where
  | created
  | modified
  | deleted
  | renamed
  | unknown
deriving DecidableEq, Inhabited

def ChangeKind.label : ChangeKind → Bytes
  | .created => "created"
  | .modified => "modified"
  | .deleted => "deleted"
  | .renamed => "renamed"
  | .unknown => "unknown"

structure Change where
  kind : ChangeKind
  path : Bytes
  size : Int
  timed : Bool
deriving DecidableEq, Inhabited

/-- What the operating system says happened to a path. -/
inductive FileOp where
  | create
  | write
  | remove
  | rename
  | chmod
deriving DecidableEq

structure WatchRules where
  extension : Bytes
  exclude : List Bytes
  /-- Whether hidden files and backup files are left out. -/
  skipHidden : Bool
deriving DecidableEq, Inhabited

namespace WatchRules

def isTemplate (extension path : Bytes) : Bool := Bytes.endsWith path extension

def isKept (patterns : List Bytes) (path : Bytes) : Bool :=
  !patterns.any fun pattern => Glob.fits pattern (Path.base path)

def isPlain (path : Bytes) : Bool :=
  let name := Path.base path
  !FileTree.isHidden name && name.getLast? != some '~'.toUInt8

def accepts (r : WatchRules) (path : Bytes) : Bool :=
  isTemplate r.extension path && isKept r.exclude path && (!r.skipHidden || isPlain path)

end WatchRules

inductive WatchError where
  | noRoot (path : Bytes) (error : DiskError)
  | notDirectory (path : Bytes)
deriving DecidableEq

def WatchError.message : WatchError → Bytes
  | .noRoot path e => "invalid root path: stat " ++ path ++ ": " ++ e.message
  | .notDirectory path => "invalid root path: " ++ path ++ " is not a directory"

/-- The rules of a watcher, and the directories it watches in the order of their names. -/
structure Watcher where
  rules : WatchRules
  dirs : List Bytes
deriving DecidableEq, Inhabited

namespace Watcher

def add (w : Watcher) (d : Disk) (root : Bytes) : Except WatchError Watcher :=
  let path := Path.clean root
  match d.stat path with
  | .error e => .error (.noRoot path e)
  | .ok t =>
      if !t.isDir then .error (.notDirectory root)
      else
        let found := match d.lstat path with
          | .ok t => FileTree.visit FileTree.isHidden path t
          | .error _ => []
        let new := (found.filter fun (_, t) => t.isDir).map (·.1)
        .ok { w with dirs := Bytes.dedup (Bytes.sort (w.dirs ++ new)) }

def isWithin (dir other : Bytes) : Bool := other == dir || Bytes.startsWith other (dir ++ "/")

def forget (w : Watcher) (dir : Bytes) : Watcher :=
  { w with dirs := w.dirs.filter fun other => !isWithin dir other }

/-- The kind of change a report stands for; a change of permissions alone is none. -/
def kindOf? (ops : List FileOp) : Option ChangeKind :=
  if ops.contains .create then some .created
  else if ops.contains .write then some .modified
  else if ops.contains .remove then some .deleted
  else if ops.contains .rename then some .renamed
  else none

def observeFile (w : Watcher) (found : Option FileTree) (path : Bytes) (ops : List FileOp) :
    Option Change :=
  if !w.rules.accepts path then none
  else (kindOf? ops).map fun kind =>
    match found with
    | some (.file content) => ⟨kind, path, content.length, true⟩
    | some _ => ⟨kind, path, 0, true⟩
    | none => ⟨kind, path, 0, false⟩

/-- Takes in a report: the watcher afterwards, and the change it stands for.  A directory that
appears is watched from then on; one that goes takes the directories below it along. -/
def observe (w : Watcher) (d : Disk) (path : Bytes) (ops : List FileOp) : Watcher × Option Change :=
  match d.stat path with
  | .ok (.dir _) =>
      if ops.contains .create && !FileTree.isHidden (Path.base path) then
        let w := match w.add d path with
          | .ok w => w
          | .error _ => w
        (w, some ⟨.created, path, 0, true⟩)
      else (w, none)
  | .ok t => (w, w.observeFile (some t) path ops)
  | .error _ =>
      if (ops.contains .remove || ops.contains .rename) && w.dirs.contains path then
        (w.forget path,
          some ⟨if ops.contains .remove then .deleted else .renamed, path, 0, false⟩)
      else (w, w.observeFile none path ops)

end Watcher

end TagLoom

import TagLoom.Disk
import TagLoom.Glob
import TagLoom.SourceFile

/-!
# Discovery of templates

The files below a root whose names end in the extension, sorted by logical path.  Hidden directories
are passed over, and so is what a pattern excludes or what a link leads out of the root for.
-/

namespace TagLoom

structure Discovery where
  extension : Bytes
  /-- Patterns for the name of a file or its path below the root. -/
  exclude : List Bytes
deriving DecidableEq, Inhabited

inductive DiscoveryError where
  | badPattern (pattern : Bytes)
  | noRoot (path : Bytes) (error : DiskError)
  | rootNotDirectory (root : Bytes)
  | cancelled (root : Bytes)
  | unreadable (action verb path : Bytes) (error : DiskError)
deriving DecidableEq

def DiscoveryError.message : DiscoveryError → Bytes
  | .badPattern p => "invalid exclude pattern " ++ Bytes.quote p ++ ": syntax error in pattern"
  | .noRoot path e => "template root: stat " ++ path ++ ": " ++ e.message
  | .rootNotDirectory root => "template root " ++ root ++ " is not a directory"
  | .cancelled root => "scanning " ++ root ++ ": context canceled"
  | .unreadable action verb path e =>
      action ++ " file " ++ path ++ ": " ++ verb ++ " " ++ path ++ ": " ++ e.message

namespace Discovery

def ending (o : Discovery) : Bytes := if o.extension.isEmpty then defaultExtension else o.extension

def excludes (o : Discovery) (below : Bytes) : Bool :=
  o.exclude.any fun pattern => Glob.fits pattern (Path.base below) || Glob.fits pattern below

def logical? (o : Discovery) (root path : Bytes) : Option Bytes :=
  if !Bytes.endsWith path o.ending then none
  else match Path.relative? root path with
    | none => none
    | some rel =>
        let below := rel.toBytes
        if rel.leavesRoot || o.excludes below then none
        else
          let logical := Bytes.trimEnding below o.ending
          if logical.isEmpty then none else some logical

/-- Whether a path leads, through links, to a place below a place. -/
def staysBelow (d : Disk) (root path : Bytes) : Bool :=
  match d.resolve true root, d.resolve true path with
  | .ok (above, _), .ok (place, _) => above.isPrefixOf place
  | _, _ => false

def templates (o : Discovery) (d : Disk) (root : Bytes) (found : List (Bytes × FileTree)) :
    List (Bytes × Bytes) :=
  found.filterMap fun (path, t) =>
    if t.isDir then none
    else match o.logical? root path with
      | some logical => if staysBelow d root path then some (path, logical) else none
      | none => none

def readFile (o : Discovery) (d : Disk) (path logical : Bytes) : Except DiscoveryError SourceFile :=
  match d.read path with
  | .ok content => .ok ⟨path, logical ++ o.ending, logical, Checksum.hash content, content⟩
  | .error e => .error (.unreadable "reading" "read" path e)

def scan (o : Discovery) (d : Disk) (root : Bytes) (cancelled : Bool) :
    Except DiscoveryError (List SourceFile) := do
  if let some pattern := o.exclude.find? (!Glob.isValid ·) then throw (.badPattern pattern)
  match d.stat (d.absolute root) with
  | .error e => throw (.noRoot (d.absolute root) e)
  | .ok t => if !t.isDir then throw (.rootNotDirectory root)
  if cancelled then throw (.cancelled root)
  let found := match d.lstat root with
    | .ok t => FileTree.visit FileTree.isHidden root t
    | .error _ => []
  let files ← (o.templates d root found).mapM fun (path, logical) => o.readFile d path logical
  return files.mergeSort fun a b => Bytes.le a.logical b.logical

end Discovery

end TagLoom

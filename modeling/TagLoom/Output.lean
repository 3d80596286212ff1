import TagLoom.Disk
import TagLoom.Compilation

/-!
# Writing generated files

Generated files go to one directory.  Files that are the same already are left alone, and generated
files that no template stands behind any more are taken away.
-/

namespace TagLoom.Output

/-- Why generated files cannot be written. -/
inductive WriteError where
  | directory (path : Bytes) (error : DiskError)
  | file (path : Bytes) (error : DiskError)
deriving DecidableEq

def WriteError.message : WriteError → Bytes
  | .directory path e => "creating output directory: mkdir " ++ path ++ ": " ++ e.message
  | .file path e => "writing " ++ path ++ ": open " ++ path ++ ": " ++ e.message

def isCurrent (d : Disk) (path content : Bytes) : Bool :=
  match d.read path with
  | .ok old => old == content
  | .error _ => false

/-- Writes files one after the other, and counts the ones that had to be written.  The first error
ends the writing. -/
def writeEach (dir : Bytes) : List GeneratedFile → Disk → Nat → Disk × Nat × Option WriteError
  | [], d, n => (d, n, none)
  | f :: fs, d, n =>
      let path := Path.join dir f.name
      if isCurrent d path f.source then writeEach dir fs d n
      else match d.write path f.source with
        | .ok d => writeEach dir fs d (n + 1)
        | .error e => (d, n, some (.file path e))

def isStale (wanted : List Bytes) (entry : Bytes × FileTree) : Bool :=
  !entry.2.isDir && !wanted.contains entry.1 && Bytes.endsWith entry.1 Name.fileEnding

def sweep (dir : Bytes) (wanted : List Bytes) (d : Disk) : Disk :=
  match d.stat dir with
  | .ok (.dir es) =>
      (es.filter (isStale wanted)).foldl (fun d (name, _) => d.erase (Path.join dir name)) d
  | _ => d

/-- Brings a directory to hold the generated files: the disk afterwards, the number of files
written, and the error if there is one. -/
def writeFiles (d : Disk) (dir : Bytes) (files : List GeneratedFile) :
    Disk × Nat × Option WriteError :=
  match d.mkdirAll dir with
  | .error (path, e) => (d, 0, some (.directory path e))
  | .ok d =>
      match writeEach dir files d 0 with
      | (d, n, some e) => (d, n, some e)
      | (d, n, none) => (sweep dir (files.map (·.name)) d, n, none)

end TagLoom.Output

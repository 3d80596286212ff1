import TagLoom.CommandLine

/-!
# The program

Runs the command line over the files whose paths come on standard input, one a line, and writes back
what changed.  A path that ends in a slash stands for a directory.
-/

namespace TagLoom.Program

partial def readLines (stream : IO.FS.Stream) : IO (List String) := do
  let line ← stream.getLine
  if line.isEmpty then return []
  let path := line.trimAsciiEnd.toString
  let rest ← readLines stream
  return if path.isEmpty then rest else path :: rest

def readPath (path : String) : IO FileTree := do
  if path.endsWith "/" then return .empty
  return .file (← IO.FS.readBinFile path).data.toList

def readDisk (paths : List String) : IO Disk := do
  let mut disk : Disk := ⟨Bytes.ofString (toString (← IO.currentDir)), .empty⟩
  for path in paths do
    let names := (Path.ofBytes (Bytes.ofString path)).parts
    disk := { disk with tree := FileTree.put (← readPath path) names disk.tree }
  return disk

def readEnvironment : IO EnvironmentFile.Bindings := do
  let mut vars := []
  for name in Startup.variableNames do
    if let some value ← IO.getEnv (name.toString?.getD "") then
      vars := vars ++ [(name, Bytes.ofString value)]
  return vars

def writeChanges (old new : Disk) : IO Unit := do
  let before := old.filesBelow "."
  let now := new.filesBelow "."
  for (path, content) in now do
    if (before.find? (·.1 == path)).map (·.2) != some content then
      IO.FS.createDirAll ((Path.directory path).toString?.getD "")
      IO.FS.writeBinFile (path.toString?.getD "") ⟨content.toArray⟩
  for (path, _) in before do
    if !now.any (·.1 == path) then IO.FS.removeFile (path.toString?.getD "")

end TagLoom.Program

open TagLoom in
/-- Runs a command; how long it takes is told in milliseconds. -/
def main (args : List String) : IO UInt32 := do
  let start ← IO.monoMsNow
  let disk ← Program.readDisk (← Program.readLines (← IO.getStdin))
  let environment ← Program.readEnvironment
  let outcome :=
    CommandLine.run ⟨disk, environment, .unmarked "unknown" "unknown"⟩ (args.map Bytes.ofString)
  Program.writeChanges disk outcome.disk
  let elapsed := Int.ofNat (((← IO.monoMsNow) - start) * Duration.millisecond)
  (← IO.getStderr).write ⟨outcome.stderr.toArray⟩
  (← IO.getStdout).write ⟨(outcome.printed (Duration.toBytes elapsed)).toArray⟩
  return outcome.exitCode.toUInt32

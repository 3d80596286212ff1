import TagLoom.Version.Timestamp

/-!
# Version of the program

What a build knows of itself: its version, the commit it was made from and when.
-/

namespace TagLoom

/-- The marks of a build.  A version of `dev` and a commit or time of `unknown` say nothing. -/
structure BuildInfo where
  mark : Bytes
  commitMark : Bytes
  timeMark : Bytes
  toolchain : Bytes
  platform : Bytes
deriving DecidableEq, Inhabited

namespace BuildInfo

def unmarked (toolchain platform : Bytes) : BuildInfo :=
  ⟨"dev", "unknown", "unknown", toolchain, platform⟩

def version (b : BuildInfo) : Bytes := if b.mark.isEmpty then "dev" else b.mark

def commit (b : BuildInfo) : Bytes := if b.commitMark.isEmpty then "unknown" else b.commitMark

def hasCommit (b : BuildInfo) : Bool := b.commit != Bytes.ofString "unknown"

def isDevelopment (b : BuildInfo) : Bool := b.version == Bytes.ofString "dev"

def built? (b : BuildInfo) : Option Timestamp :=
  if b.timeMark.isEmpty || b.timeMark == Bytes.ofString "unknown" then none
  else (Timestamp.parse? b.timeMark).filter (!·.isZero)

def shortCommit : Nat := 7

def short (b : BuildInfo) : Bytes :=
  if !b.hasCommit || b.commit.length < shortCommit then b.version
  else if b.isDevelopment then "dev-" ++ b.commit.take shortCommit
  else b.version ++ " (" ++ b.commit.take shortCommit ++ ")"

def detailed (b : BuildInfo) : List Bytes :=
  ["Version: " ++ b.version] ++
  (if b.hasCommit then ["Commit: " ++ b.commit] else []) ++
  (match b.built? with
    | some t => ["Built: " ++ t.toBytes]
    | none => []) ++
  ["Go: " ++ b.toolchain, "Platform: " ++ b.platform]

def isRelease (b : BuildInfo) : Bool := !b.isDevelopment && !Bytes.startsWith b.version "dev-"

end BuildInfo

end TagLoom

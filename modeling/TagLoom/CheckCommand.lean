import TagLoom.Duration
import TagLoom.Unicode.Space
import TagLoom.Bytes.Quoted
import TagLoom.Path

/-!
# Check commands

A command that looks over generated sources.  Only known tools may be run, no shell takes part, and
no argument may mean something to a shell or point out of the working directory.
-/

namespace TagLoom

inductive ArgumentFlaw where
  | shellCharacter (c : Bytes)
  | unprintable (r : Nat)
  | traversal
  | absolute
deriving DecidableEq

inductive CommandFlaw where
  | empty
  | notAllowed (command : Bytes)
  | argument (arg : Bytes) (flaw : ArgumentFlaw)
deriving DecidableEq

structure CheckCommand where
  command : Bytes
  args : List Bytes
  timeout : Duration
deriving DecidableEq, Inhabited

structure ProgramRun where
  output : Bytes
  exit : Int
  elapsed : Duration
deriving DecidableEq, Inhabited

def codePoint (r : Nat) : Bytes := "U+" ++ Bytes.upperAscii (Bytes.hex 4 r)

def ArgumentFlaw.message (arg : Bytes) : ArgumentFlaw → Bytes
  | .shellCharacter c => "contains dangerous character: " ++ c
  | .unprintable r => "contains non-printable or non-ASCII character " ++ codePoint r
  | .traversal => "contains path traversal: " ++ arg
  | .absolute => "absolute path not allowed: " ++ arg

def CommandFlaw.message : CommandFlaw → Bytes
  | .empty => "check command cannot be empty"
  | .notAllowed c => "command validation failed: command '" ++ c ++ "' is not allowed"
  | .argument arg flaw =>
      "command validation failed: invalid argument '" ++ arg ++ "': " ++ flaw.message arg

namespace CheckCommand

def allowed : List Bytes := ["go", "gofmt", "staticcheck"]

def shellCharacters : List Bytes :=
  [";", "&", "|", "$", "\x60", "(", ")", "<", ">", "\\", "\"", "'"]

def isPlain (r : Nat) : Bool := 0x20 ≤ r && r ≤ 0x7E

def argumentFlaw? (arg : Bytes) : Option ArgumentFlaw :=
  match shellCharacters.find? (Bytes.includes arg) with
  | some c => some (.shellCharacter c)
  | none =>
      match (Utf8.runes arg).find? (fun r => !isPlain r) with
      | some r => some (.unprintable r)
      | none =>
          if (Path.components arg).contains Path.up then some .traversal
          else if Path.isAbsolute arg then some .absolute
          else none

/-- The time a command may take unless one is chosen. -/
def defaultTimeout : Duration := 30 * Duration.second

def parse (line : Bytes) (timeout : Duration) : Except CommandFlaw CheckCommand :=
  match Unicode.words line with
  | [] => .error .empty
  | command :: args =>
      if !allowed.contains command then .error (.notAllowed command)
      else match args.findSome? fun arg => (argumentFlaw? arg).map (arg, ·) with
        | some (arg, flaw) => .error (.argument arg flaw)
        | none => .ok ⟨command, args, if timeout ≤ 0 then defaultTimeout else timeout⟩

def toBytes (c : CheckCommand) : Bytes := Bytes.join " " (c.command :: c.args)

/-- What a run of the command prints, and why it failed if it did.  A run that takes too long is
ended before it prints anything. -/
def observe (c : CheckCommand) (run : ProgramRun) : Bytes × Option Bytes :=
  if run.elapsed ≥ c.timeout then
    ([], some (c.toBytes ++ " timed out after " ++ c.timeout.toBytes ++ ": context deadline exceeded"))
  else if run.exit == 0 then (run.output, none)
  else (run.output, some (c.toBytes ++ " failed: exit status " ++ Bytes.ofInt run.exit ++
    "\nOutput: " ++ run.output))

end CheckCommand

end TagLoom

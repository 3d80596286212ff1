import TagLoom.CommandLine.Command
import TagLoom.CommandLine.Startup
import TagLoom.Diagnostic
import TagLoom.Manifest.Document
import TagLoom.Discovery
import TagLoom.Output
import TagLoom.Logging
import TagLoom.Version
import TagLoom.DevSession

/-!
# The command line

What the program does with its arguments: a function of the disk, the environment and the arguments
to what is printed, the disk afterwards and whether the run failed.  How long a run takes is not known
here; where it is printed, a mark stands for it.
-/

namespace TagLoom

structure Workplace where
  disk : Disk
  environment : EnvironmentFile.Bindings
  build : BuildInfo

inductive PrintedPart where
  | text (s : Bytes)
  /-- How long the run took. -/
  | elapsed
deriving DecidableEq

structure RunOutcome where
  failed : Bool
  stdout : List PrintedPart
  stderr : Bytes
  disk : Disk

namespace RunOutcome

def exitCode (o : RunOutcome) : Nat := if o.failed then 1 else 0

def printed (o : RunOutcome) (elapsed : Bytes) : Bytes :=
  o.stdout.flatMap fun
    | .text s => s
    | .elapsed => elapsed

def said (d : Disk) (stdout : Bytes) : RunOutcome := ⟨false, [.text stdout], [], d⟩

def fail (d : Disk) (message : Bytes) : RunOutcome := ⟨true, [], "Error: " ++ message ++ "\n", d⟩

def after (notice : Bytes) (o : RunOutcome) : RunOutcome := { o with stderr := notice ++ o.stderr }

end RunOutcome

namespace CommandLine

def compile (d : Disk) (s : Settings) (skipCode : Bool) :
    Except Bytes (Except (List Diagnostic) Compiled) :=
  match (Discovery.mk s.templates.extension s.templates.exclude).scan d s.templates.dir false with
  | .error e => .error ("scanning " ++ s.templates.dir ++ ": " ++ e.message)
  | .ok files =>
      .ok (Compilation.run (.ofChoices s.output.package s.templates.extension skipCode) [] files false).2

def compiling (d : Disk) (s : Settings) (skipCode : Bool) (next : Compiled → RunOutcome) : RunOutcome :=
  match compile d s skipCode with
  | .error message => .fail d message
  | .ok (.error reports) => (RunOutcome.fail d "compilation failed").after (Diagnostic.report reports)
  | .ok (.ok c) => next c

def tagCount (c : Compiled) : Bytes := Bytes.ofNat c.tags.defs.length

/-! ## Generate -/

def writeManifest (d : Disk) (s : Settings) (c : Compiled) : Except Bytes Disk :=
  let path := s.output.manifest
  if path.isEmpty then .ok d
  else match d.mkdirAll (Path.directory path) with
    | .error (place, e) => .error ("creating manifest directory: mkdir " ++ place ++ ": " ++ e.message)
    | .ok d =>
        match d.write path (Manifest.ofCompiled c s.output.package).encode with
        | .error e => .error ("writing manifest: open " ++ path ++ ": " ++ e.message)
        | .ok d => .ok d

def logger (s : Settings) : Logger :=
  ⟨s.log.format == Bytes.ofString "json", some (LogLevel.ofName s.log.level), [], []⟩

def finishedRecord (s : Settings) (c : Compiled) (written : Nat) : Bytes :=
  (logger s).log .debug none "Generation finished"
    [.text "tags", .int .int c.tags.defs.length, .text "files", .int .int c.files.length,
      .text "written", .int .int written]

def generate (d : Disk) (s : Settings) : RunOutcome :=
  compiling d s false fun c =>
    let outcome : RunOutcome := match Output.writeFiles d s.output.dir c.files with
      | (d, _, some e) => .fail d e.message
      | (d, written, none) =>
          match writeManifest d s c with
          | .error message => .fail d message
          | .ok d =>
              { failed := false
                stdout := [.text ("Compiled " ++ tagCount c ++ " tag(s) into " ++
                    Diagnostic.setOff s.output.dir ++ " (" ++ Bytes.ofNat written ++
                    " file(s) updated) in "), .elapsed, .text "\n"]
                stderr := finishedRecord s c written
                disk := d }
    outcome.after (Diagnostic.report c.warnings)

/-! ## The other commands -/

def check (d : Disk) (s : Settings) : RunOutcome :=
  compiling d s true fun c =>
    (RunOutcome.said d (tagCount c ++ " tag(s) OK\n")).after (Diagnostic.report c.warnings)

def list (d : Disk) (s : Settings) (format : Bytes) : RunOutcome :=
  compiling d s true fun c =>
    let m := Manifest.ofCompiled c s.output.package
    let format := Unicode.lowerText format
    .said d (if format == Bytes.ofString "json" then m.json
      else if format == Bytes.ofString "yaml" then m.encode else m.table)

def serverOptions (s : Settings) (build : BuildInfo) (noReload : Bool) : ServerOptions :=
  ⟨s.development.host, s.development.port.toNat, s.development.liveReload && !noReload, true, build.short⟩

def sessionOptions (s : Settings) : SessionOptions :=
  { root := s.templates.dir
    discovery := ⟨s.templates.extension, s.templates.exclude⟩
    package := s.output.package
    outputDir := if s.development.writeOutput then some s.output.dir else none
    check := if s.development.writeOutput && !s.development.checkCommand.isEmpty then
        (CheckCommand.parse s.development.checkCommand s.development.checkTimeout).toOption
      else none }

def startSession (w : Workplace) (s : Settings) (noReload : Bool) : DevSession :=
  .start (sessionOptions s) (serverOptions s w.build noReload) default w.disk

def serve (w : Workplace) (s : Settings) (noReload : Bool) : RunOutcome :=
  let session := startSession w s noReload
  let announced := "Starting taglet server at http://" ++ Server.address session.server ++ "\n"
  let (session, _, err) := session.runStopped []
  match err with
  | none => .said session.disk announced
  | some e => { RunOutcome.fail session.disk ("server error: " ++ e) with stdout := [.text announced] }

def buildToJson (b : BuildInfo) : Json :=
  let time := match b.built? with
    | some t => t.toBytes
    | none => "0001-01-01T00:00:00Z"
  .object [(Bytes.ofString "info", .object [
      (Bytes.ofString "version", .string b.version), (Bytes.ofString "git_commit", .string b.commit),
      (Bytes.ofString "build_time", .string time), (Bytes.ofString "go_version", .string b.toolchain),
      (Bytes.ofString "platform", .string b.platform)]),
    (Bytes.ofString "is_release", .bool b.isRelease)]

def version (w : Workplace) (format : Bytes) (short : Bool) : RunOutcome :=
  if format == Bytes.ofString "json" then
    .said w.disk ((buildToJson w.build).pretty Manifest.jsonStyle 0 ++ "\n")
  else if format == Bytes.ofString "text" then
    .said w.disk (if short then w.build.short ++ "\n"
      else Bytes.concat (((programName ++ " " ++ w.build.short) :: w.build.detailed).map (· ++ "\n")))
  else .fail w.disk ("unsupported format: " ++ format ++ " (supported: text, json)")

def withSettings (w : Workplace) (start : Startup) (args : Arguments) (next : Settings → RunOutcome) :
    RunOutcome :=
  match start.settings args with
  | .error e => .fail w.disk ("failed to load configuration: " ++ e.message)
  | .ok s => next s

def runCommand (w : Workplace) (start : Startup) (args : Arguments) : Command → RunOutcome
  | .generate => withSettings w start args (generate w.disk)
  | .check => withSettings w start args (check w.disk)
  | .list => withSettings w start args fun s => list w.disk s (args.textOr "format" "table")
  | .serve => withSettings w start args fun s => serve w s (args.isOn "no-reload")
  | .version => version w (args.textOr "format" "text") (args.isOn "short")
  | .help =>
      match Help.onTopic args.words with
      | .ok text => .said w.disk text
      | .error complaint => ⟨false, [], complaint, w.disk⟩
  | .completion => .said w.disk (Help.command .completion)

/-- Runs a command with arguments.  Help goes before all else. -/
def runWith (w : Workplace) (c : Command) (args : List Bytes) : RunOutcome :=
  match Arguments.read (c.ownFlags ++ Command.globalFlags) args with
  | .error e => .fail w.disk e.message
  | .ok a =>
      if a.isOn "help" || c == .completion then .said w.disk (Help.command c)
      else
        let start := Startup.begin w.disk w.environment (a.textOr "config" [])
        (runCommand w start a c).after start.notice

def run (w : Workplace) (args : List Bytes) : RunOutcome :=
  match Command.target args with
  | .unknown word =>
      let o := RunOutcome.fail w.disk (Command.unknownMessage word)
      { o with stderr := o.stderr ++ "Run '" ++ programName ++ " --help' for usage.\n" }
  | .command c args => runWith w c args
  | .program args =>
      match Arguments.read (Command.helpFlag programName :: Command.globalFlags) args with
      | .error e => .fail w.disk e.message
      | .ok _ => .said w.disk Help.program

end CommandLine

end TagLoom

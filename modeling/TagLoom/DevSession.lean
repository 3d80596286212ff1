import TagLoom.CheckCommand
import TagLoom.Discovery
import TagLoom.Hub
import TagLoom.Output
import TagLoom.Server
import TagLoom.Session
import TagLoom.ToolOutput
import TagLoom.Watching

/-!
# Development sessions

A session over a disk, with a server for it and browsers that wait for updates.

A pass finds the templates on a disk, compiles them and loads them.  If sources are wanted, they are
written and looked over afterwards; what goes wrong there is a warning, for the loaded templates are
good already.
-/

namespace TagLoom

/-! ## Passes -/

structure SessionOptions where
  root : Bytes
  discovery : Discovery
  package : Bytes
  /-- Where generated sources go, if they are wanted. -/
  outputDir : Option Bytes
  check : Option CheckCommand
deriving DecidableEq, Inhabited

namespace SessionOptions

def rootError (o : SessionOptions) (message : Bytes) : List Diagnostic :=
  [.error .generation o.root 0 0 message]

def compileOptions (o : SessionOptions) : CompileOptions :=
  .ofChoices o.package o.discovery.extension o.outputDir.isNone

def checkSources (dir : Bytes) (check : CheckCommand) (run : ProgramRun) : List Diagnostic :=
  match check.observe run with
  | (_, none) => []
  | (output, some e) =>
      match ToolOutput.reports check.toBytes output with
      | [] => [.warning .generation dir 0 0 (check.toBytes ++ ": " ++ e)]
      | reports => reports

def writeSources (o : SessionOptions) (run : ProgramRun) (d : Disk) (files : List GeneratedFile) :
    Disk × List Diagnostic :=
  match o.outputDir with
  | none => (d, [])
  | some dir =>
      match Output.writeFiles d dir files with
      | (d, _, some e) => (d, [.warning .generation dir 0 0 e.message])
      | (d, n, none) =>
          match o.check with
          | some check => (d, if n == 0 then [] else checkSources dir check run)
          | none => (d, [])

def finish (o : SessionOptions) (run : ProgramRun) (now : Bytes) (d : Disk) (c : Compiled) :
    Disk × PassOutcome :=
  let bundle := Bundle.ofTagSet c.tags c.signatures
  match bundle.flaw? with
  | some m => (d, .failure (o.rootError m) now)
  | none =>
      let (d, more) := o.writeSources run d c.files
      (d, .success ⟨bundle.registry, .ofCompiled c o.package, c.warnings ++ more, now⟩)

/-- A pass over what is on a disk: the parsed templates kept for the next pass, the disk and the
outcome. -/
def pass (o : SessionOptions) (run : ProgramRun) (now : Bytes) (cache : ParseCache) (d : Disk)
    (cancelled : Bool) : ParseCache × Disk × PassOutcome :=
  match o.discovery.scan d o.root cancelled with
  | .error e => (cache, d, .failure (o.rootError ("scanning templates: " ++ e.message)) now)
  | .ok files =>
      match Compilation.run o.compileOptions cache files false with
      | (cache, .error errors) => (cache, d, .failure errors now)
      | (cache, .ok c) => (cache, o.finish run now d c)

end SessionOptions

/-! ## Sessions -/

structure DevSession where
  options : SessionOptions
  server : ServerOptions
  /-- How the tool behaves that looks over generated sources. -/
  tool : ProgramRun
  disk : Disk
  cache : ParseCache
  shared : Shared
  /-- The browsers, which are told about recompilations. -/
  hub : Hub Json
  metrics : Metrics

namespace DevSession

def start (options : SessionOptions) (server : ServerOptions) (tool : ProgramRun) (disk : Disk) :
    DevSession := ⟨options, server, tool, disk, [], .initial, .empty, .zero⟩

def notify (h : Hub Json) (e : SessionEvent) : Hub Json :=
  match Server.update? e with
  | some m => h.broadcast m
  | none => h

/-- Compiles what is on the disk at a moment: the session afterwards, and what listeners are told. -/
def recompile (s : DevSession) (now : Bytes) (cancelled : Bool) : DevSession × SessionEvent :=
  let (cache, disk, outcome) := s.options.pass s.tool now s.cache s.disk cancelled
  let e := s.shared.event outcome
  ({ s with
      cache
      disk
      shared := s.shared.recompile outcome
      hub := notify s.hub e
      metrics := s.metrics.recompiled outcome e }, e)

def watcher (s : DevSession) : Watcher :=
  ⟨⟨s.options.discovery.ending, s.options.discovery.exclude, true⟩, []⟩

/-- Runs a session that is told to stop before it starts: it compiles once, and fails if the root
cannot be watched. -/
def runStopped (s : DevSession) (now : Bytes) : DevSession × SessionEvent × Option Bytes :=
  let (s, e) := s.recompile now true
  match s.watcher.add s.disk s.options.root with
  | .ok _ => (s, e, none)
  | .error err => (s, e, some ("watching " ++ s.options.root ++ ": " ++ err.message))

def request (s : DevSession) (r : HttpRequest) : DevSession × HttpResponse :=
  let (response, pattern) := Server.respond s.server s.shared s.metrics r
  ({ s with metrics := s.metrics.request ⟨r.method, pattern, response.status⟩ }, response)

def shutdown (s : DevSession) : DevSession := { s with hub := s.hub.closeAll }

end DevSession

end TagLoom

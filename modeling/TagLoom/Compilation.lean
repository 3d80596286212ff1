import TagLoom.SourceFile
import TagLoom.Template.Parser
import TagLoom.Placement
import TagLoom.Code.Emit
import TagLoom.Code.Print

/-!
# Compilation passes

A pass takes source files to tags with signatures and generated code, or to the reports that say
why not.  All stages run even when an earlier one reports errors, so a pass reports what it can;
reports that only follow from a broken file are left out.

Parsed templates are kept between passes by path and checksum.
-/

namespace TagLoom

structure CompileOptions where
  package : Bytes
  extension : Bytes
  /-- Whether the pass stops before it generates code. -/
  skipCode : Bool
deriving DecidableEq, Inhabited

namespace CompileOptions

def ofChoices (package extension : Bytes) (skipCode : Bool) : CompileOptions :=
  ⟨if package.isEmpty then "views" else package,
    if extension.isEmpty then defaultExtension else extension, skipCode⟩

end CompileOptions

structure GeneratedFile where
  name : Bytes
  template : Bytes
  source : Bytes
deriving DecidableEq, Inhabited

structure Compiled where
  tags : TagSet
  signatures : List Signature
  files : List GeneratedFile
  warnings : List Diagnostic
deriving Inhabited

structure ParsedFile where
  hash : Bytes
  template : Template
  reports : List Diagnostic
deriving Inhabited

abbrev ParseCache := List (Bytes × ParsedFile)

namespace ParseCache

def get? (cache : ParseCache) (path : Bytes) : Option ParsedFile :=
  (cache.find? (·.1 == path)).map (·.2)

def ofPass (files : List (SourceFile × ParsedFile)) : ParseCache :=
  files.foldl (fun (cache : ParseCache) (f, p) =>
    cache.filter (·.1 != f.path) ++ [(f.path, p)]) []

end ParseCache

namespace Compilation

def parseFile (f : SourceFile) : ParsedFile :=
  let (t, faults) := Template.parse f.display f.logical f.content
  ⟨f.hash, t, Template.diagnostics f.display faults⟩

def parseCached (cache : ParseCache) (f : SourceFile) : ParsedFile :=
  match if f.hash.isEmpty then none else cache.get? f.path with
  | some p => if p.hash == f.hash then p else parseFile f
  | none => parseFile f

def withoutFiles (reports : List Diagnostic) (broken : List Bytes) : List Diagnostic :=
  reports.filter fun d => !broken.contains d.file

/-- Templates before this one, by the name of the file they generate. -/
structure Collisions where
  seen : List (Bytes × Bytes)
  reports : List Diagnostic

def collide (acc : Collisions) (t : Template) : Collisions :=
  let name := Name.file t.path
  match acc.seen.find? (·.1 == name) with
  | some (_, first) =>
      { acc with reports := acc.reports ++ [.error .generation t.file 0 0 ("templates " ++
          Bytes.quote first ++ " and " ++ Bytes.quote t.path ++ " both generate " ++ name)] }
  | none => { acc with seen := acc.seen ++ [(name, t.path)] }

def collisions (templates : List Template) : List Diagnostic :=
  (templates.foldl collide ⟨[], []⟩).reports

/-! ## Generated files -/

def generateFile (options : CompileOptions) (tags : TagSet) (f : Code.File) :
    Except Diagnostic GeneratedFile :=
  match f.print options.package options.extension with
  | .ok text => .ok ⟨Name.file f.path, f.path, text⟩
  | .error message =>
      let file := ((tags.templates.find? (·.path == f.path)).map (·.file)).getD []
      .error (.error .generation file 0 0 message)

def generateRegistry (options : CompileOptions) (r : Code.Registry) :
    Except Diagnostic GeneratedFile :=
  match r.print options.package with
  | .ok text => .ok ⟨Code.registryFile, [], text⟩
  | .error message => .error (.error .generation [] 0 0 message)

def allOk (results : List (Except Diagnostic GeneratedFile)) :
    Except (List Diagnostic) (List GeneratedFile) :=
  match results.filterMap fun | .error d => some d | .ok _ => none with
  | [] => .ok (results.filterMap fun | .ok f => some f | .error _ => none)
  | reports => .error reports

/-- The generated files of a pass, or the reports on why the code cannot be laid out. -/
def generate (options : CompileOptions) (tags : TagSet) (sigs : List Signature) :
    Except (List Diagnostic) (List GeneratedFile) :=
  let (files, registry) := Code.emit tags sigs
  allOk (files.map (generateFile options tags) ++ [generateRegistry options registry])

/-! ## Passes -/

def analyze (options : CompileOptions) (parsed : List ParsedFile) :
    Except (List Diagnostic) Compiled :=
  let syntaxReports := parsed.flatMap (·.reports)
  let broken := (Diagnostic.errors syntaxReports).map (·.file)
  let (tags, resolution) := TagSet.build (parsed.map (·.template))
  let (sigs, inference) := Inference.infer tags
  let (placed, places) := Placement.place tags sigs
  let reports := syntaxReports ++ withoutFiles resolution broken ++ withoutFiles inference broken ++
    withoutFiles places broken ++ collisions (parsed.map (·.template))
  if Diagnostic.hasErrors reports then .error (Diagnostic.sort reports)
  else
    let warnings := Diagnostic.warnings reports
    if options.skipCode then .ok ⟨placed, sigs, [], warnings⟩
    else match generate options placed sigs with
      | .ok files => .ok ⟨placed, sigs, files, warnings⟩
      | .error problems => .error (Diagnostic.sort (reports ++ problems))

def givenUp : Diagnostic := .error .generation [] 0 0 "compilation cancelled: context canceled"

/-- Runs a pass over files with distinct logical paths: the cache afterwards, and the result or the
reports.  A pass that was given up before it started parses nothing. -/
def run (options : CompileOptions) (cache : ParseCache) (files : List SourceFile) (cancelled : Bool) :
    ParseCache × Except (List Diagnostic) Compiled :=
  if cancelled && !files.isEmpty then (cache, .error [givenUp])
  else
    let parsed := files.map (parseCached cache)
    (ParseCache.ofPass (files.zip parsed), analyze options parsed)

end Compilation

end TagLoom

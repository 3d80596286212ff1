import TagLoom.CommandLine.Flag
import TagLoom.Suggestion
import TagLoom.Unicode.Space

/-!
# Commands

The commands of the program, with their names, flags and descriptions, and how arguments are taken
for a command.
-/

namespace TagLoom

inductive Command where
  | generate
  | check
  | list
  | serve
  | version
  | help
  | completion
deriving DecidableEq, Inhabited

def programName : Bytes := "taglet"

namespace Command

def all : List Command := [.check, .generate, .list, .serve, .version, .help, .completion]

def name : Command → Bytes
  | .generate => "generate"
  | .check => "check"
  | .list => "list"
  | .serve => "serve"
  | .version => "version"
  | .help => "help"
  | .completion => "completion"

def aliases : Command → List Bytes
  | .generate => ["g", "build"]
  | .list => ["l"]
  | .serve => ["s"]
  | _ => []

def ofWord? (word : Bytes) : Option Command :=
  all.find? fun c => c.name == word || c.aliases.contains word

/-! ## Flags -/

def textFlag (name : String) (short : Option Char) (standard about : String)
    (field : Option (String × String)) : Flag :=
  ⟨name, short.map Char.toUInt8, .text, standard, about,
    field.map fun (a, b) => [Bytes.ofString a, Bytes.ofString b]⟩

def switchFlag (name about : String) (field : Option (String × String)) : Flag :=
  { textFlag name none "false" about field with kind := .switch }

def globalFlags : List Flag :=
  [textFlag "config" none ""
      "config file (default is .taglet.yml, can also use TAGLET_CONFIG_FILE env var)" none,
    textFlag "log-format" none "text" "log format (text, json)" (some ("log", "format")),
    textFlag "log-level" (some 'l') "info" "log level (debug, info, warn, error)"
      (some ("log", "level")),
    textFlag "templates" (some 't') "" "template directory (default ./templates)"
      (some ("templates", "dir"))]

def helpFlag (topic : Bytes) : Flag :=
  { switchFlag "help" "" none with short := some 'h'.toUInt8, about := "help for " ++ topic }

def profileModes : List Bytes := ["cpu", "mem", "trace"]

def listFormats : List Bytes := ["table", "json", "yaml"]

def ownFlags : Command → List Flag
  | .generate =>
      [helpFlag "generate",
        textFlag "manifest" none "" "Write a YAML tag manifest to this path" (some ("output", "manifest")),
        textFlag "output" (some 'o') "" "Output directory (default ./views)" (some ("output", "dir")),
        textFlag "package" none "" "Package name of generated files (default views)"
          (some ("output", "package")),
        { textFlag "profile" none "" "Profile the compilation (cpu, mem, trace)" none with
            kind := .choice profileModes },
        textFlag "profile-dir" none "." "Directory for profile output" none]
  | .list =>
      [{ textFlag "format" (some 'f') "table" "Output format (table, json, yaml)" none with
            kind := .choice listFormats },
        helpFlag "list"]
  | .serve =>
      [helpFlag "serve",
        textFlag "host" none "localhost" "Host to bind to" (some ("development", "host")),
        switchFlag "no-reload" "Disable live reload in the browser" none,
        { textFlag "port" (some 'p') "8080" "Port to serve on" (some ("development", "port")) with
            kind := .number },
        switchFlag "write-output" "Write generated Go code after every successful build"
          (some ("development", "write_output"))]
  | .version =>
      [textFlag "format" (some 'f') "text" "Output format (text, json)" none,
        helpFlag "version",
        switchFlag "short" "Show short version only" none]
  | c => [helpFlag c.name]

/-! ## Descriptions -/

def summary : Command → Bytes
  | .generate => "Compile templates into Go render functions"
  | .check => "Report template diagnostics without writing files"
  | .list => "List all tags and their inferred parameters"
  | .serve => "Start the development server with hot reload"
  | .version => "Show version information"
  | .help => "Help about any command"
  | .completion => "Generate the autocompletion script for the specified shell"

def description : Command → Bytes
  | .generate =>
      "Compile every template under the template directory into Go source.

Each template file becomes one <name>.taglet.go file in the output
directory, and taglet_registry.go binds every tag by name. Nothing is
written when any template has an error.

Examples:
  taglet generate                          # Compile ./templates into ./views
  taglet generate -o internal/views        # Write to another directory
  taglet generate --manifest tags.yml      # Also write a YAML tag manifest
  taglet generate --profile cpu            # Profile the compilation"
  | .check =>
      "Run every analysis stage over the templates and print all
diagnostics. Exits non-zero when any template has an error.

Examples:
  taglet check                    # Check ./templates
  taglet check -t site/templates  # Check another directory"
  | .list =>
      "List every tag defined under the template directory with its Go
function name, source position and inferred parameters.

Examples:
  taglet list                     # List all tags in table format
  taglet list -f json             # Output as JSON
  taglet list --format yaml       # Output as YAML (the manifest format)"
  | .serve =>
      "Compile templates in memory and serve them, recompiling on every
change. Template errors are shown in the browser until they are fixed,
while the last good build keeps serving.

Examples:
  taglet serve                     # Serve on localhost:8080
  taglet serve -p 3000             # Serve on another port
  taglet serve --write-output      # Also keep generated Go code up to date"
  | .version =>
      "Display version information for taglet including:

- Semantic version number
- Git commit hash
- Build timestamp
- Go version used for compilation
- Target platform (OS/architecture)

Examples:
  taglet version               # Show version
  taglet version --short       # Show short version only
  taglet version --format json # Output as JSON"
  | .help =>
      "Help provides help for any command in the application.
Simply type taglet help [path to command] for full details."
  | .completion =>
      "Generate the autocompletion script for taglet for the specified shell.
See each sub-command's help for details on how to use the generated script."

def programDescription : Bytes :=
  "Taglet compiles a directory of HTML tag templates into Go render
functions, or serves them from memory with hot reload while you edit.

Quick Start:
  taglet generate                 Compile templates into Go code
  taglet check                    Report diagnostics without writing files
  taglet list                     List every tag and its parameters
  taglet serve                    Start the development server

Command Aliases (for faster typing):
  generate (g, build), serve (s), list (l)"

/-! ## Which command is meant -/

/-- Whether the next argument is taken for the value of this one as long as it is not known which
command is meant. -/
def awaitsValue (arg : Bytes) : Bool :=
  !arg.contains '='.toUInt8 &&
    (Bytes.startsWith arg "--" || (Bytes.startsWith arg "-" && arg.length == 2))

def words : List Bytes → List Bytes
  | [] => []
  | arg :: rest =>
      if arg == Bytes.ofString "--" then []
      else if awaitsValue arg then
        match rest with
        | _ :: next :: more => words (next :: more)
        | _ => []
      else if arg.isEmpty || Bytes.startsWith arg "-" then words rest
      else arg :: words rest

def withoutFirst (word : Bytes) : List Bytes → List Bytes
  | [] => []
  | arg :: rest =>
      if arg == Bytes.ofString "--" then arg :: rest
      else if awaitsValue arg then
        match rest with
        | value :: more => arg :: value :: withoutFirst word more
        | [] => [arg]
      else if arg == word then rest
      else arg :: withoutFirst word rest

/-- What arguments mean: the program as a whole or a command, each with the arguments that are left,
or a word that is no command. -/
inductive Target where
  | program (args : List Bytes)
  | command (c : Command) (args : List Bytes)
  | unknown (word : Bytes)
deriving DecidableEq

def target (args : List Bytes) : Target :=
  match words args with
  | [] => .program args
  | word :: _ =>
      match ofWord? word with
      | some c => .command c (withoutFirst word args)
      | none => .unknown word

def maxEdits : Nat := 2

def isSuggested (word : Bytes) (c : Command) : Bool :=
  let word := Unicode.lowerText word
  c != .help && (Suggestion.editDistance word c.name ≤ maxEdits || Bytes.startsWith c.name word)

def unknownMessage (word : Bytes) : Bytes :=
  "unknown command " ++ Bytes.quote word ++ " for " ++ Bytes.quote programName ++
    (match all.filter (isSuggested word) with
      | [] => []
      | cs => "\n\nDid you mean this?\n" ++ Bytes.concat (cs.map fun c => "\t" ++ c.name ++ "\n"))

end Command

end TagLoom

/-!
## Help

What the program says about itself and its commands.
-/

namespace TagLoom.Help

def flagStart (f : Flag) : Bytes :=
  (match f.short with
    | some c => "  -" ++ [c] ++ ", --"
    | none => "      --") ++ f.name ++
  (match f.kind with
    | .text | .choice _ => " string"
    | .number => " int"
    | .switch => [])

def flagAbout (f : Flag) : Bytes :=
  f.about ++
  (match f.kind with
    | .text | .choice _ =>
        Bytes.when (!f.standard.isEmpty) (" (default " ++ Bytes.quote f.standard ++ ")")
    | .number => " (default " ++ f.standard ++ ")"
    | .switch => [])

def flagLines (flags : List Flag) : Bytes :=
  let width := (flags.map fun f => (flagStart f).length).foldl max 0
  Bytes.join "\n" (flags.map fun f => TextTable.fillTo (width + 3) (flagStart f) ++ flagAbout f)

def paragraph (title : String) (lines : Bytes) : Bytes := "\n\n" ++ Bytes.ofString title ++ ":\n" ++ lines

def nameWidth : Nat := 12

def topicLine (name about : Bytes) : Bytes := "  " ++ TextTable.fillTo nameWidth name ++ about

def topics : List (Bytes × Bytes) → Bytes := fun ts =>
  paragraph "Available Commands" (Bytes.join "\n" (ts.map fun (name, about) => topicLine name about))

def more (path : Bytes) : Bytes :=
  "\n\nUse \"" ++ path ++ " [command] --help\" for more information about a command."

def byName (cs : List Command) : List Command := cs.mergeSort fun a b => Bytes.le a.name b.name

def programUsage : Bytes :=
  let flags := (Command.helpFlag programName :: Command.globalFlags).mergeSort fun a b =>
    Bytes.le a.name b.name
  "Usage:\n  " ++ programName ++ " [command]" ++
    topics ((byName Command.all).map fun c => (c.name, c.summary)) ++
    paragraph "Flags" (flagLines flags) ++ more programName ++ "\n"

def shells : List Bytes := ["bash", "fish", "powershell", "zsh"]

def usageLine (c : Command) : Bytes :=
  let path := programName ++ " " ++ c.name
  match c with
  | .completion => path ++ " [command]"
  | .help => path ++ " [command] [flags]"
  | _ => path ++ " [flags]"

def commandUsage (c : Command) : Bytes :=
  "Usage:\n  " ++ usageLine c ++
    Bytes.when (!c.aliases.isEmpty) (paragraph "Aliases" ("  " ++ Bytes.join ", " (c.name :: c.aliases))) ++
    Bytes.when (c == .completion) (topics (shells.map fun s =>
      (s, "Generate the autocompletion script for " ++ s))) ++
    paragraph "Flags" (flagLines c.ownFlags) ++
    paragraph "Global Flags" (flagLines Command.globalFlags) ++
    Bytes.when (c == .completion) (more (programName ++ " " ++ c.name)) ++ "\n"

def program : Bytes := Command.programDescription ++ "\n\n" ++ programUsage

def command (c : Command) : Bytes := c.description ++ "\n\n" ++ commandUsage c

def onTopic (words : List Bytes) : Except Bytes Bytes :=
  match Command.target words with
  | .program _ => .ok program
  | .command c _ => .ok (command c)
  | .unknown _ =>
      .error ("Unknown help topic [" ++ Bytes.join " " (words.map fun w => "\x60" ++ w ++ "\x60") ++ "]\n" ++
        programUsage)

end TagLoom.Help

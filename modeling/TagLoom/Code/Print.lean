import TagLoom.Code
import TagLoom.Bytes.Quoted
import TagLoom.Code.Review
import TagLoom.Decimal.Notation
import TagLoom.Unicode.Space

/-!
# Printing code

Generated code as source text, first as a draft, one statement after the other, and then in the
standard layout of its language: a tab for each level, no blanks around an operator inside a list of
arguments, aligned equals signs, and typographic quotes in the comment on a function.
-/

namespace TagLoom.Code.Layout

/-- The layouts of code: as it is written down, and the standard one. -/
inductive Style where
  | draft
  | standard
deriving DecidableEq


def prefersRaw (s : Bytes) : Bool :=
  s.any (fun c => c == '"'.toUInt8 || c == '\\'.toUInt8) && !s.any (fun c => c == 0x60 || c == 13) &&
    (Utf8.runes s).all fun r => r == 10 || r == 9 || Unicode.isPrintable r

def textConstant (s : Bytes) : Bytes :=
  if prefersRaw s then [0x60] ++ s ++ [0x60] else Bytes.quote s

def constant : Literal → Bytes
  | .nil => "nil"
  | .bool b => if b then "true" else "false"
  | .int n => Bytes.ofInt n
  | .float f => "float64(" ++ Decimal.writeGeneral f ++ ")"
  | .text s => textConstant s

def escapeName : Escape → Bytes
  | .html => "runtime.EscapeHTML"
  | .attr => "runtime.EscapeAttr"
  | .url => "runtime.EscapeURL"
  | .none => "runtime.EscapeNone"

def formName : WriteForm → Bytes
  | .block => "runtime.Block"
  | .text => "runtime.Text"
  | .value => "runtime.Val"

def typeName : ParamType → Bytes
  | .content => "runtime.Content"
  | .value => "any"
  | _ => "string"

def entryName (n : Nat) : Bytes := "_e" ++ Bytes.ofNat n

def envText : Option (List (Bytes × Bytes)) → Bytes
  | none => "nil"
  | some pairs => "runtime.Env\x7b" ++
      Bytes.join ", " (pairs.map fun (n, id) => Bytes.quote n ++ ": " ++ id) ++ "\x7d"

/-! ## Comments

A comment ends with its line; carriage returns and blanks at its end are not kept. -/

def isSpaceCell (c : Utf8.Cell) : Bool := Unicode.isSpace c.rune

def withoutTrailingSpace (s : Bytes) : Bytes :=
  ((Utf8.cells s).reverse.dropWhile isSpaceCell).reverse.flatMap (·.spelled)

/-- Pairs of simple quotes as the typographic quotes they stand for; three back quotes stay. -/
def curled : Bytes → Bytes
  | 0x60 :: 0x60 :: 0x60 :: rest => 0x60 :: 0x60 :: 0x60 :: curled rest
  | 0x60 :: 0x60 :: rest => Utf8.encode 0x201C ++ curled rest
  | 39 :: 39 :: rest => Utf8.encode 0x201D ++ curled rest
  | c :: rest => c :: curled rest
  | [] => []

/-! ## Statements -/

section

variable (style : Style)

def tabs (n : Nat) : Bytes := Bytes.when (style == .standard) (Bytes.fill n 9)

def comment (isDoc : Bool) (s : Bytes) : Bytes :=
  "// " ++ (match style with
    | .draft => s
    | .standard => withoutTrailingSpace ((if isDoc then curled s else s).filter (· != 13))) ++ "\n"

def line (level : Nat) (s : Bytes) : Bytes := tabs style level ++ s ++ "\n"

def returnError (level : Nat) : Bytes := line style (level + 1) "return err" ++ line style level "\x7d"

mutual

/-- A term at a level of nesting; `tight` inside a list of several arguments. -/
def term (exprs : Bytes) (level : Nat) (tight : Bool) : Term → Bytes
  | .name id => id
  | .text s => textConstant s
  | .constant l => constant l
  | .eval i env => "rc.Eval(" ++ exprs ++ Bytes.ofNat i ++ ", " ++ envText env ++ ")"
  | .toText t => "runtime.ToText(" ++ term exprs level tight t ++ ")"
  | .concat ts =>
      Bytes.join (if tight && style == .standard then Bytes.ofString "+" else " + ")
        (terms exprs level tight ts)
  | .textContent t => "runtime.TextContent(" ++ term exprs level tight t ++ ")"
  | .asContent t => "runtime.AsContent(" ++ term exprs level tight t ++ ")"
  | .block body => "func(rc *runtime.Context) error \x7b\n" ++ stmts exprs (level + 1) body ++
      line style (level + 1) "return rc.Err()" ++ tabs style level ++ "\x7d"

def terms (exprs : Bytes) (level : Nat) (tight : Bool) : List Term → List Bytes
  | [] => []
  | t :: ts => term exprs level tight t :: terms exprs level tight ts

def stmt (exprs : Bytes) (level : Nat) : Stmt → Bytes
  | .raw s => line style level ("rc.Raw(" ++ textConstant s ++ ")")
  | .write form t esc => line style level ("rc.Write(" ++ formName form ++ "(" ++
      term exprs level true t ++ "), " ++ escapeName esc ++ ")")
  | .markdown t => line style level ("rc.WriteMarkdown(" ++ term exprs level false t ++ ")")
  | .sanitized t policy => line style level ("rc.WriteSanitized(" ++
      term exprs level true t ++ ", " ++ Bytes.quote policy ++ ")")
  | .call f args => line style level ("if err := " ++ f ++ "(" ++
      Bytes.join ", " ("rc" :: terms exprs level true args) ++ "); err != nil \x7b") ++
      returnError style level
  | .branch onContent t yes no =>
      line style level ((if onContent then "if " ++ term exprs level false t ++ " != nil \x7b"
        else "if runtime.Truthy(" ++ term exprs level false t ++ ") \x7b")) ++
      stmts exprs (level + 1) yes ++
      (match no with
      | some body => line style level "\x7d else \x7b" ++ stmts exprs (level + 1) body
      | none => []) ++
      line style level "\x7d"
  | .each entry t item index body =>
      let e := entryName entry
      line style level ("for _, " ++ e ++ " := range rc.Range(" ++
        term exprs level false t ++ ") \x7b") ++
      line style (level + 1) (item ++ " := " ++ e ++ ".Value") ++
      (match index with
      | some i => line style (level + 1) (i ++ " := " ++ e ++ ".Key") ++
          line style (level + 1) ("_, _ = " ++ item ++ ", " ++ i)
      | none => line style (level + 1) ("_ = " ++ item)) ++
      stmts exprs (level + 1) body ++ line style level "\x7d"

def stmts (exprs : Bytes) (level : Nat) : List Stmt → Bytes
  | [] => []
  | s :: ss => stmt exprs level s ++ stmts exprs level ss

end

def function (exprs : Bytes) (f : Function) : Bytes :=
  comment style true (f.name ++ " renders " ++ f.renders ++ ".") ++
  line style 0 ("func " ++ f.name ++ "(" ++ Bytes.join ", " ("rc *runtime.Context" ::
    f.params.map fun (id, type) => id ++ " " ++ typeName type) ++ ") error \x7b") ++
  stmts style exprs 1 f.body ++ line style 1 "return rc.Err()" ++ line style 0 "\x7d"

/-! ## Prepared expressions -/

/-- Rows of names and values with the equals signs of each run of one-line values aligned; a value
of several lines ends its run. -/
def alignRuns (rows : List (Bytes × Bytes)) : List (List (Bytes × Bytes)) :=
  rows.foldr (fun row (acc : List (List (Bytes × Bytes))) =>
    match acc with
    | run :: runs => if row.2.contains 10 then [row] :: run :: runs else (row :: run) :: runs
    | [] => [[row]]) []

def alignedRow (width : Nat) (row : Bytes × Bytes) : Bytes :=
  let blanks := match style with
    | .draft => 0
    | .standard => width - Utf8.count row.1
  line style 1 (row.1 ++ Bytes.fill blanks 32 ++ " = " ++ row.2)

def programsText (exprs : Bytes) (sources : List Bytes) : Bytes :=
  if sources.isEmpty then []
  else
    let rows := sources.zipIdx.map fun (s, i) =>
      (exprs ++ Bytes.ofNat i, "runtime.MustCompile(" ++ textConstant s ++ ")")
    line style 0 "var (" ++
    ((alignRuns rows).map fun run =>
      let width := (run.map fun r => Utf8.count r.1).foldl max 0
      run.flatMap (alignedRow style width)).flatten ++
    line style 0 ")" ++ "\n"

/-! ## Files -/

def generatedNote : Bytes := "// Code generated by taglet. DO NOT EDIT.\n"

def header (package : Bytes) : Bytes :=
  let name := match style with
    | .draft => package
    | .standard => packageName package
  "package " ++ name ++ "\n\nimport \"github.com/conneroisu/taglet/pkg/runtime\"\n\n"

def fileText (package extension : Bytes) (f : File) : Bytes :=
  generatedNote ++ comment style false ("source: " ++ f.path ++ extension) ++ "\n" ++
    header style package ++
    programsText style f.exprName f.programs ++
    Bytes.join "\n" (f.functions.map (function style f.exprName))

/-! ## The registry -/

def kindName (p : Param) : Bytes :=
  match p.kind with
  | .content => "runtime.ParamContent"
  | .value => "runtime.ParamValue"
  | _ => "runtime.ParamText"

def paramLiteral (p : Param) : Bytes :=
  let default := (p.default.map (·.source)).getD []
  "\x7bName: " ++ Bytes.quote p.name ++ ", Kind: " ++ kindName p ++
    Bytes.when p.required ", Required: true" ++
    Bytes.when (!default.isEmpty) (", Default: " ++ textConstant default) ++ "\x7d"

def paramsLiteral (params : List Param) : Bytes :=
  if params.isEmpty then "nil"
  else "[]runtime.Param\x7b" ++ Bytes.join ", " (params.map paramLiteral) ++ "\x7d"

def optionalBinding (b : Binding) (result accessor : Bytes) (fallible : Bool) : Bytes :=
  line style 2 (b.variable_ ++ Bytes.when fallible ", err" ++ " := runtime." ++ accessor ++ "(rc, " ++
    Bytes.quote b.param.name ++ ", func() " ++ result ++ " \x7b") ++
  line style 3 ("return " ++ term style registryExprName 3 false b.default) ++ line style 2 "\x7d)"

def errorCheck : Bytes := line style 2 "if err != nil \x7b" ++ returnError style 2

def requiredBinding (b : Binding) (accessor : Bytes) : Bytes :=
  line style 2 (b.variable_ ++ ", err := runtime." ++ accessor ++ "(rc, " ++ Bytes.quote b.param.name ++
    ")") ++ errorCheck style

def binding (b : Binding) : Bytes :=
  match b.param.type, b.param.required with
  | .text, true => requiredBinding style b "RequiredText"
  | .text, false => optionalBinding style b "string" "OptionalText" true ++ errorCheck style
  | .content, true => requiredBinding style b "RequiredContent"
  | .content, false => optionalBinding style b "runtime.Content" "OptionalContent" false
  | _, true => requiredBinding style b "RequiredValue"
  | _, false => optionalBinding style b "any" "OptionalValue" false

def entry (e : Entry) : Bytes :=
  line style 1 ("r.Add(" ++ Bytes.quote e.tag ++ ", " ++ paramsLiteral (e.bindings.map (·.param)) ++
    ", func(rc *runtime.Context) error \x7b") ++
  (e.bindings.map (binding style)).flatten ++
  line style 2 ("return " ++ e.function ++ "(" ++
    Bytes.join ", " ("rc" :: e.bindings.map (·.variable_)) ++ ")") ++
  line style 1 "\x7d)"

def registryText (package : Bytes) (r : Registry) : Bytes :=
  generatedNote ++ "\n" ++ header style package ++ programsText style registryExprName r.programs ++
    "// Registry returns a runtime registry rendering every tag from a model.\n" ++
    line style 0 "func Registry() *runtime.Registry \x7b" ++
    line style 1 "r := runtime.NewRegistry()" ++
    (r.entries.map (entry style)).flatten ++ line style 1 "return r" ++ line style 0 "\x7d"

end

end TagLoom.Code.Layout

namespace TagLoom.Code

/-- The text of a template's file, or the report on why it cannot be laid out; `extension` is that
of the template. -/
def File.print (package extension : Bytes) (f : File) : Except Bytes Bytes :=
  match problemReport? (Name.file f.path) (Layout.fileText .draft package extension f) with
  | some report => .error ("formatting generated code: " ++ report)
  | none => .ok (Layout.fileText .standard package extension f)

/-- The text of the registry file, or the report on why it cannot be laid out. -/
def Registry.print (package : Bytes) (r : Registry) : Except Bytes Bytes :=
  match problemReport? registryFile (Layout.registryText .draft package r) with
  | some report => .error ("formatting generated registry: " ++ report)
  | none => .ok (Layout.registryText .standard package r)

end TagLoom.Code

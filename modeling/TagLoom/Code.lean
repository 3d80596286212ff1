import TagLoom.TagSet
import TagLoom.Unicode.Letter

/-!
# Generated code

The Go package that renders the tags of a pass.  Functions perform ordered writes on a rendering
context: neighbouring literals are one constant write, and every interpolation is a write with
the escape of its place.
-/

namespace TagLoom.Code

inductive WriteForm where
  | block
  | text
  | value
deriving DecidableEq

mutual

inductive Term where
  /-- A variable. -/
  | name (id : Bytes)
  /-- A text constant. -/
  | text (s : Bytes)
  /-- A constant that is no text. -/
  | constant (l : Literal)
  /-- The value of a prepared expression of the file under names; without names when it reads
  none. -/
  | eval (program : Nat) (env : Option (List (Bytes × Bytes)))
  | toText (t : Term)
  /-- Texts one after the other. -/
  | concat (parts : List Term)
  | textContent (t : Term)
  | asContent (t : Term)
  /-- A content block. -/
  | block (body : List Stmt)

inductive Stmt where
  | raw (s : Bytes)
  | write (form : WriteForm) (t : Term) (escape : Escape)
  | markdown (t : Term)
  | sanitized (t : Term) (policy : Bytes)
  /-- The call of a tag function; its error is returned. -/
  | call (function : Bytes) (args : List Term)
  /-- A branch on whether a value is truthy or, for content, whether there is some. -/
  | branch (onContent : Bool) (t : Term) (yes : List Stmt) (no : Option (List Stmt))
  /-- A loop over the entries of a value, held in a numbered variable. -/
  | each (entry : Nat) (t : Term) (item : Bytes) (index : Option Bytes) (body : List Stmt)

end

instance : Inhabited Term := ⟨.constant .nil⟩

instance : Inhabited Stmt := ⟨.raw []⟩

structure Function where
  name : Bytes
  /-- What the comment above says it renders. -/
  renders : Bytes
  params : List (Bytes × ParamType)
  body : List Stmt
deriving Inhabited

/-- The file of a template: its prepared expressions, numbered from zero under a common name,
and its functions. -/
structure File where
  path : Bytes
  exprName : Bytes
  programs : List Bytes
  functions : List Function
deriving Inhabited

structure Binding where
  variable_ : Bytes
  param : Param
  default : Term
deriving Inhabited

structure Entry where
  tag : Bytes
  function : Bytes
  bindings : List Binding
deriving Inhabited

/-- The file that binds every tag to a model. -/
structure Registry where
  programs : List Bytes
  entries : List Entry
deriving Inhabited

/-! ## Names -/

def keywords : List Bytes := ["break", "case", "chan", "const", "continue", "default", "defer",
  "else", "fallthrough", "for", "func", "go", "goto", "if", "import", "interface", "map", "package",
  "range", "return", "select", "struct", "switch", "type", "var"]

/-- Names the language declares, and those the generated code uses itself. -/
def predeclared : List Bytes := ([
  "any", "bool", "byte", "comparable", "complex64", "complex128", "error", "float32", "float64",
  "int", "int8", "int16", "int32", "int64", "rune", "string", "uint", "uint8", "uint16", "uint32",
  "uint64", "uintptr", "true", "false", "iota", "nil", "append", "cap", "clear", "close", "complex",
  "copy", "delete", "imag", "len", "make", "max", "min", "new", "panic", "print", "println", "real",
  "recover", "rc", "runtime", "err", "r"] : List String).map Bytes.ofString

/-- Whether a name may not be used for a variable as it is; `functions` are the names of the tag
functions of the package. -/
def isReserved (functions : List Bytes) (id : Bytes) : Bool :=
  keywords.contains id || predeclared.contains id || id.head? == some '_'.toUInt8 ||
    id == Name.reserved || functions.contains id

/-- Adds underscores until a name is free; the bound is the number of names in use. -/
def freshen (used : List Bytes) : Nat → Bytes → Bytes
  | 0, id => id
  | fuel + 1, id => if used.contains id then freshen used fuel (id ++ "_") else id

def variableFor (functions used : List Bytes) (name : Bytes) : Bytes :=
  let id := if isReserved functions name then name ++ "_" else name
  freshen used (used.length + 1) id

def exprName (path : Bytes) : Bytes :=
  let stem := path.map fun c => if c == '/'.toUInt8 then '_'.toUInt8 else c
  let isPart (r : Nat) : Bool := Unicode.isLetter r || Unicode.isDigit r
  "_" ++ Utf8.ofRunes ((Utf8.runes stem).map fun r => if isPart r then r else '_'.toNat) ++ "_expr"

def registryExprName : Bytes := "_expr"

def registryFile : Bytes := "taglet_registry.go"

end TagLoom.Code

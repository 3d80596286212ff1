import TagLoom.Bytes

/-!
# Names in templates

Which element names belong to the compiler, which names a tag or a parameter may have,
and the names generated code uses for tags and files.
-/

namespace TagLoom.Name

def builtinMark : Bytes := "t:"

def isStart (c : UInt8) : Bool := c == '_'.toUInt8 || Bytes.isLetter c

def isPart (c : UInt8) : Bool :=
  isStart c || Bytes.isDigit c || c == '.'.toUInt8 || c == ':'.toUInt8 || c == '-'.toUInt8

def isSpace (c : UInt8) : Bool :=
  c == ' '.toUInt8 || c == '\t'.toUInt8 || c == '\n'.toUInt8 || c == '\r'.toUInt8 || c == 0x0C

def isBlank (s : Bytes) : Bool := s.all isSpace

/-- The element or attribute name at the start of a text; empty when there is none. -/
def leading : Bytes → Bytes
  | c :: rest => if isStart c then c :: rest.takeWhile isPart else []
  | [] => []

/-- Whether an element name belongs to the compiler: a built-in, or an invocation, whose
name starts upper-case or has a dot. -/
def isActive (name : Bytes) : Bool :=
  match name with
  | [] => false
  | c :: _ => Bytes.startsWith name builtinMark || Bytes.isUpper c || name.elem '.'.toUInt8

def isBuiltin (name : Bytes) : Bool := Bytes.startsWith name builtinMark

def isIdent (name : Bytes) : Bool :=
  match name with
  | [] => false
  | c :: rest => isStart c && rest.all fun c => isStart c || Bytes.isDigit c

def isTag (name : Bytes) : Bool := isIdent name && (name.head?.map Bytes.isUpper).getD false

def ofPath (path : Bytes) : Bytes :=
  path.map fun c => if c == '/'.toUInt8 then '.'.toUInt8 else c

/-- A word with its first letter in upper case; digits before it do not count. -/
def title (word : Bytes) : Bytes :=
  let digits := word.takeWhile Bytes.isDigit
  match word.dropWhile Bytes.isDigit with
  | c :: rest => digits ++ Bytes.upperByte c :: rest
  | [] => digits

def isAlphanumeric (c : UInt8) : Bool := Bytes.isLetter c || Bytes.isDigit c

/-- The exported identifier of a tag's generated function: the letters and digits of its
name, each run of them title-cased. -/
def exported (tag : Bytes) : Bytes :=
  let ident := Bytes.concat ((Bytes.fields (fun c => !isAlphanumeric c) tag).map title)
  match ident with
  | [] => "Tag"
  | c :: _ => if Bytes.isDigit c then "Tag" ++ ident else ident

/-- The identifier of the generated registry constructor; no tag may map to it. -/
def reserved : Bytes := "Registry"

def fileEnding : Bytes := ".taglet.go"

def file (path : Bytes) : Bytes :=
  path.map (fun c => if c == '/'.toUInt8 then '_'.toUInt8 else c) ++ fileEnding

end TagLoom.Name

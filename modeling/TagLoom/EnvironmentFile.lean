import TagLoom.Unicode.Space
import TagLoom.Unicode.Letter

/-!
# Files of variables

A file of statements `NAME=value` or `NAME: value`, one a line.  A value may be in quotes and then
run over several lines; in double quotes escapes count.  Outside of single quotes `$NAME` stands for
a variable that the file has set before.
-/

namespace TagLoom.EnvironmentFile

abbrev Bindings := List (Bytes × Bytes)

namespace Bindings

def get? (vars : Bindings) (name : Bytes) : Option Bytes := (vars.find? (·.1 == name)).map (·.2)

/-- Sets a variable; a value it had before gives way. -/
def insert (vars : Bindings) (name value : Bytes) : Bindings :=
  vars.filter (·.1 != name) ++ [(name, value)]

def orElse (first second : Bindings) : Bindings :=
  first ++ second.filter fun v => (first.get? v.1).isNone

end Bindings

/-- White space that does not end a line, as far as statements go. -/
def isBlank (r : Nat) : Bool := [9, 11, 12, 13, 32, 0x85, 0xA0].contains r

def skipBlanks (s : Bytes) : Bytes :=
  s.drop (((Utf8.scan s).takeWhile fun (r, _) => isBlank r).foldl (fun n cell => n + cell.2) 0)

def trimBlanks (rs : List Nat) : Bytes :=
  Utf8.ofRunes ((rs.dropWhile isBlank).reverse.dropWhile isBlank).reverse

/-! ## Names -/

def isNumberByte (c : UInt8) : Bool :=
  Bytes.isDigit c || ([0xB2, 0xB3, 0xB9, 0xBC, 0xBD, 0xBE] : List UInt8).contains c

/-- What a name may hold; blanks within a name are part of it. -/
def isNameByte (c : UInt8) : Bool :=
  isBlank c.toNat || c == '_'.toUInt8 || c == '.'.toUInt8 || isNumberByte c ||
    Unicode.isLetter c.toNat

def skipExport (s : Bytes) : Bytes :=
  let rest := Bytes.trimStart s "export"
  if rest.length < s.length && (skipBlanks rest).length < rest.length then skipBlanks rest else s

/-- The name at the start of a statement, and what follows its mark.  A text without a mark is a
value without a name. -/
def name? (s : Bytes) : Option (Bytes × Bytes) :=
  let s := skipExport (skipBlanks s)
  let name := s.takeWhile isNameByte
  match s.drop name.length with
  | [] => if s.isEmpty then none else some ([], skipBlanks s)
  | c :: rest =>
      if c == '='.toUInt8 || c == ':'.toUInt8 then
        some (name.take (Unicode.solidLength name), skipBlanks rest)
      else none

/-! ## Values -/

def isReferenceByte (c : UInt8) : Bool := Bytes.isUpper c || Bytes.isDigit c || c == '_'.toUInt8

/-- The parts of a reference after its dollar sign: what opens it, its name, what closes it. -/
def reference (s : Bytes) : Bytes × Bytes × Bytes :=
  let paren := s.take (if s.head? == some '('.toUInt8 then 1 else 0)
  let afterParen := s.drop paren.length
  let brace := afterParen.take (if afterParen.head? == some 0x7B then 1 else 0)
  let afterBrace := afterParen.drop brace.length
  let name := afterBrace.takeWhile isReferenceByte
  let afterName := afterBrace.drop name.length
  (paren ++ brace, name, afterName.take (if afterName.head? == some 0x7D then 1 else 0))

/-- Replaces references by the values of variables.  A reference after a backslash stays and loses
the backslash.  The count bounds the number of steps. -/
def expandWithin (vars : Bindings) : Nat → Bytes → Bytes
  | 0, s => s
  | _, [] => []
  | fuel + 1, c :: rest =>
      let escaped := c == '\\'.toUInt8 && rest.head? == some '$'.toUInt8
      if !escaped && c != '$'.toUInt8 then c :: expandWithin vars fuel rest
      else
        let after := if escaped then rest.drop 1 else rest
        let (opening, name, closing) := reference after
        let whole := opening ++ name ++ closing
        (if escaped || name.isEmpty then '$'.toUInt8 :: whole else (vars.get? name).getD []) ++
          expandWithin vars fuel (after.drop whole.length)

def expand (vars : Bindings) (s : Bytes) : Bytes := expandWithin vars s.length s

def letterEscapes : Bytes → Bytes
  | a :: b :: rest =>
      if a != '\\'.toUInt8 || b == 10 then a :: letterEscapes (b :: rest)
      else if b == 'n'.toUInt8 then 10 :: letterEscapes rest
      else if b == 'r'.toUInt8 then 13 :: letterEscapes rest
      else a :: b :: letterEscapes rest
  | s => s

def plainEscapes : Bytes → Bytes
  | a :: b :: rest =>
      if a == '\\'.toUInt8 && b != '$'.toUInt8 then b :: plainEscapes rest
      else a :: plainEscapes (b :: rest)
  | s => s

def cutComment (cs : List Nat) : List Nat :=
  match ((List.range cs.length).filter fun i =>
    i > 0 && cs[i]? == some '#'.toNat && (cs[i - 1]?.map isBlank).getD false).getLast? with
  | some i => cs.take i
  | none => cs

def quotedLength? (quote : UInt8) (s : Bytes) : Option Nat :=
  (List.range s.length).find? fun i => i > 0 && s[i]? == some quote && s[i - 1]? != some '\\'.toUInt8

def value? (vars : Bindings) (s : Bytes) : Option (Bytes × Bytes) :=
  match s.head?.filter fun c => c == '"'.toUInt8 || c == '\''.toUInt8 with
  | some quote =>
      (quotedLength? quote s).map fun n =>
        let inner := Bytes.trimWhere (· == quote) (s.take n)
        (if quote == '"'.toUInt8 then expand vars (plainEscapes (letterEscapes inner)) else inner,
          s.drop (n + 1))
  | none =>
      let line := s.takeWhile fun c => c != 10 && c != 13
      some (expand vars (trimBlanks (cutComment (Utf8.runes line))), s.drop line.length)

/-! ## Files -/

def statementStart : Nat → Bytes → Bytes
  | 0, s => s
  | fuel + 1, s =>
      let s := s.drop (Unicode.leadingSpace s)
      if s.head? == some '#'.toUInt8 then statementStart fuel (s.dropWhile (· != 10)) else s

/-- The variables statements set, on top of earlier ones.  The count bounds the number of
statements. -/
def statements? : Nat → Bindings → Bytes → Option Bindings
  | 0, vars, _ => some vars
  | fuel + 1, vars, s =>
      match statementStart s.length s with
      | [] => some vars
      | s => do
          let (name, rest) ← name? s
          let (value, rest) ← value? vars rest
          statements? fuel (vars.insert name value) rest

/-- The variables a file sets; none when a statement is malformed. -/
def read? (s : Bytes) : Option Bindings := statements? (s.length + 1) [] (Bytes.replaceAll s "\r\n" "\n")

end TagLoom.EnvironmentFile

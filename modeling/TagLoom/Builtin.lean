import TagLoom.Template.Node

/-!
# Built-in output elements

The elements that write a value in a special way.  Their arguments are scalars.
-/

namespace TagLoom

inductive BuiltinWrite where
  | raw
  | markdown
  | sanitized
deriving DecidableEq, Inhabited

/-- A parameter of a built-in element; a static one must be plain quoted text. -/
structure BuiltinParam where
  name : Bytes
  required : Bool
  isStatic : Bool
  default : Bytes
deriving DecidableEq

structure Builtin where
  name : Bytes
  params : List BuiltinParam
  write : BuiltinWrite
deriving DecidableEq

/-- The rules for what markup survives in a sanitized value. -/
inductive Policy where
  | ugc
  | strict
deriving DecidableEq

namespace Policy

def label : Policy → Bytes
  | .ugc => "ugc"
  | .strict => "strict"

def ofLabel? (s : Bytes) : Option Policy := [Policy.ugc, .strict].find? (·.label == s)

end Policy

namespace Builtin

def value : BuiltinParam := ⟨"value", true, false, []⟩

def all : List Builtin := [
  ⟨"t:markdown", [value], .markdown⟩,
  ⟨"t:raw", [value], .raw⟩,
  ⟨"t:sanitize", [value, ⟨"policy", false, true, "ugc"⟩], .sanitized⟩]

def find? (name : Bytes) : Option Builtin := all.find? (·.name == name)

def names : List Bytes := all.map (·.name)

def param? (b : Builtin) (name : Bytes) : Option BuiltinParam := b.params.find? (·.name == name)

def staticArg (b : Builtin) (args : List Arg) (name : Bytes) : Bytes :=
  match (Arg.find? args name).bind Arg.staticText? with
  | some s => s
  | none => ((b.param? name).map (·.default)).getD []

end Builtin

end TagLoom

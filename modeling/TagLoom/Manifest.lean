import TagLoom.Compilation

/-!
# Manifests

A description of the tags of a compiled set: where each one is defined, what it invokes and which
parameters it takes.
-/

namespace TagLoom

/-- A parameter in a manifest; an empty default stands for none. -/
structure ManifestParam where
  name : Bytes
  type : Bytes
  required : Bool
  default : Bytes
deriving DecidableEq, Inhabited

structure ManifestTag where
  name : Bytes
  function : Bytes
  template : Bytes
  file : Bytes
  line : Int
  calls : List Bytes
  params : List ManifestParam
deriving DecidableEq, Inhabited

/-- The package of the generated code and its tags in the order of their names. -/
structure Manifest where
  package : Bytes
  tags : List ManifestTag
deriving DecidableEq, Inhabited

namespace Manifest

def ofParam (p : Param) : ManifestParam :=
  ⟨p.name, p.type.label, p.required, (p.default.map (·.source)).getD []⟩

def ofDefinition (tags : TagSet) (sigs : List Signature) (d : Definition) : ManifestTag :=
  { name := d.name
    function := Name.exported d.name
    template := d.template
    file := d.file
    line := d.pos.line
    calls := tags.callsOf d.name
    params := (((Signature.find? sigs d.name).map (·.params)).getD []).map ofParam }

def ofCompiled (c : Compiled) (package : Bytes) : Manifest :=
  ⟨package, c.tags.defs.map (ofDefinition c.tags c.signatures)⟩

end Manifest

end TagLoom

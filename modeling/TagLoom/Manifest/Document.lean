import TagLoom.Json.Print
import TagLoom.Manifest
import TagLoom.Unicode.Space
import TagLoom.Yaml
import TagLoom.Yaml.Print
import TagLoom.Yaml.Reader

/-!
# Manifests as documents

A manifest is written as YAML and can be read back.  Empty lists of calls and parameters and empty
defaults are left out of the document.  It is listed as a table for readers and as JSON for programs.
-/

namespace TagLoom.Manifest

/-! ## Writing -/

def textValue (s : Bytes) : Yaml := .scalar false s

def entry (name : String) (v : Yaml) : Yaml × Yaml := (textValue (Bytes.ofString name), v)

def entryUnless (absent : Bool) (name : String) (v : Yaml) : List (Yaml × Yaml) :=
  if absent then [] else [entry name v]

def boolValue (b : Bool) : Yaml := .scalar true (if b then "true" else "false")

def paramToYaml (p : ManifestParam) : Yaml :=
  .mapping ([entry "name" (textValue p.name), entry "type" (textValue p.type),
    entry "required" (boolValue p.required)] ++
    entryUnless p.default.isEmpty "default" (textValue p.default))

def tagToYaml (t : ManifestTag) : Yaml :=
  .mapping ([entry "name" (textValue t.name), entry "function" (textValue t.function),
    entry "template" (textValue t.template), entry "file" (textValue t.file),
    entry "line" (.scalar true (Bytes.ofInt t.line))] ++
    entryUnless t.calls.isEmpty "calls" (.sequence (t.calls.map textValue)) ++
    entryUnless t.params.isEmpty "params" (.sequence (t.params.map paramToYaml)))

def toYaml (m : Manifest) : Yaml :=
  .mapping [entry "package" (textValue m.package), entry "tags" (.sequence (m.tags.map tagToYaml))]

def encode (m : Manifest) : Bytes := m.toYaml.print

/-! ## Reading -/

def asParam : Yaml.Decoder ManifestParam := fun v => do
  match ← Yaml.asMembers v with
  | none => some none
  | some ms =>
      return some
        { name := ← Yaml.fieldOr ms "name" Yaml.asText []
          type := ← Yaml.fieldOr ms "type" Yaml.asText []
          required := ← Yaml.fieldOr ms "required" Yaml.asBool false
          default := ← Yaml.fieldOr ms "default" Yaml.asText [] }

def asTag : Yaml.Decoder ManifestTag := fun v => do
  match ← Yaml.asMembers v with
  | none => some none
  | some ms =>
      return some
        { name := ← Yaml.fieldOr ms "name" Yaml.asText []
          function := ← Yaml.fieldOr ms "function" Yaml.asText []
          template := ← Yaml.fieldOr ms "template" Yaml.asText []
          file := ← Yaml.fieldOr ms "file" Yaml.asText []
          line := ← Yaml.fieldOr ms "line" Yaml.asInt 0
          calls := ← Yaml.fieldOr ms "calls" (Yaml.asList Yaml.asText) []
          params := ← Yaml.fieldOr ms "params" (Yaml.asList asParam) [] }

/-- The manifest of a value; fields that are not known are passed over. -/
def ofYaml? (v : Yaml) : Option Manifest := do
  match ← Yaml.asMembers v with
  | none => some ⟨[], []⟩
  | some ms =>
      return { package := ← Yaml.fieldOr ms "package" Yaml.asText []
               tags := ← Yaml.fieldOr ms "tags" (Yaml.asList asTag) [] }

def decode? (s : Bytes) : Option Manifest := (Yaml.read? s).bind ofYaml?

/-! ## Tables -/

/-- A parameter with its type; a question mark says that it may be left out. -/
def paramCell (p : ManifestParam) : Bytes :=
  p.name ++ " " ++ p.type ++ Bytes.when (!p.required) "?"

def row (t : ManifestTag) : List Bytes :=
  [t.name, t.function, t.file ++ ":" ++ Bytes.ofInt t.line, Bytes.join ", " (t.params.map paramCell)]

def header : List Bytes := ["TAG", "FUNCTION", "LOCATION", "PARAMETERS"]

def table (m : Manifest) : Bytes :=
  if m.tags.isEmpty then "No tags found.\n" else TextTable.print (header :: m.tags.map row)

/-! ## JSON -/

def member (name : String) (j : Json) : Bytes × Json := (Bytes.ofString name, j)

def memberUnless (absent : Bool) (name : String) (j : Json) : List (Bytes × Json) :=
  if absent then [] else [member name j]

def paramToJson (p : ManifestParam) : Json :=
  .object ([member "name" (.string p.name), member "type" (.string p.type),
    member "required" (.bool p.required)] ++
    memberUnless p.default.isEmpty "default" (.string p.default))

def tagToJson (t : ManifestTag) : Json :=
  .object ([member "name" (.string t.name), member "function" (.string t.function),
    member "template" (.string t.template), member "file" (.string t.file),
    member "line" (.number (Bytes.ofInt t.line))] ++
    memberUnless t.calls.isEmpty "calls" (.array (t.calls.map .string)) ++
    memberUnless t.params.isEmpty "params" (.array (t.params.map paramToJson)))

def toJson (m : Manifest) : Json :=
  .object [member "package" (.string m.package),
    member "tags" (if m.tags.isEmpty then .null else .array (m.tags.map tagToJson))]

def jsonStyle : Json.PrintStyle := ⟨true, false⟩

def json (m : Manifest) : Bytes := m.toJson.pretty jsonStyle 0 ++ "\n"

end TagLoom.Manifest

import TagLoom.Bytes.Base64
import TagLoom.Yaml.Token

/-!
# Reading YAML

The tokens of a document are put together to a value.  Only the first document of a text is read.
-/

namespace TagLoom.Yaml

/-- Values that were given a name, the last one first. -/
abbrev Anchors := List (Bytes × Yaml)

def Anchors.get? (anchors : Anchors) (name : Bytes) : Option Yaml :=
  (anchors.find? (·.1 == name)).map (·.2)

/-- What is read: a value, the names known after it, and the tokens that follow. -/
abbrev Read (α : Type) := α × Anchors × List YamlToken

/-- What stands before a value: a name for it, and the kind it is said to have. -/
structure Properties where
  anchor : Option Bytes
  tag : Option Bytes

def properties (ts : List YamlToken) : Properties × List YamlToken :=
  match ts with
  | .anchor a :: .tag t :: rest | .tag t :: .anchor a :: rest => (⟨some a, some t⟩, rest)
  | .anchor a :: rest => (⟨some a, none⟩, rest)
  | .tag t :: rest => (⟨none, some t⟩, rest)
  | _ => (⟨none, none⟩, ts)

def atomTags : List Bytes := ["!!bool", "!!int", "!!float", "!!null", "!!timestamp"]

/-- A scalar under a tag.  A text that is not of the kind the tag says is a mistake; null takes any
text, and a tag of any other name makes it a text. -/
def tagged (tag : Option Bytes) (plain : Bool) (text : Bytes) : Option Yaml :=
  match tag with
  | none => some (.scalar plain text)
  | some t =>
      if t == Bytes.ofString "!!null" && plain then some empty
      else if t == Bytes.ofString "!!binary" then (Base64.decode? text).map (.scalar false)
      else if !atomTags.contains t then some (.scalar false text)
      else
        let kind := (YamlAtom.ofPlain text).tag
        if t == "!!" ++ kind || (t == Bytes.ofString "!!float" && kind == Bytes.ofString "int")
        then some (.scalar true text) else none

def named (p : Properties) (anchors : Anchors) (v : Yaml) : Anchors :=
  match p.anchor with
  | some a => (a, v) :: anchors
  | none => anchors

def endsEntry (compact : Bool) : List YamlToken → Bool
  | .blockEntry :: _ | .blockEnd :: _ => true
  | .key :: _ | .value :: _ => compact
  | _ => false

def endsMember : List YamlToken → Bool
  | .key :: _ | .value :: _ | .blockEnd :: _ => true
  | _ => false

def endsFlow : List YamlToken → Bool
  | .flowEntry :: _ | .flowSequenceEnd :: _ | .flowMappingEnd :: _ => true
  | _ => false

mutual

/-- Reads a value.  Inside a block mapping a sequence need not be indented.  The count bounds the
number of steps. -/
def readNode (block compact : Bool) : Nat → Anchors → List YamlToken → Option (Read Yaml)
  | 0, _, _ => none
  | _ + 1, anchors, .alias name :: rest => (anchors.get? name).map (·, anchors, rest)
  | fuel + 1, anchors, ts => do
      let (p, ts) := properties ts
      let (v, anchors, ts) ← match ts with
        | .scalar plain text :: rest => (tagged p.tag plain text).map (·, anchors, rest)
        | .blockEntry :: _ =>
            if compact then (readBlockItems true fuel anchors ts).map fun (vs, r) => (.sequence vs, r)
            else none
        | .flowSequence :: rest =>
            (readFlowItems true fuel anchors rest).map fun (vs, r) => (.sequence vs, r)
        | .flowMapping :: rest =>
            (readFlowMembers true fuel anchors rest).map fun (ms, r) => (.mapping ms, r)
        | .blockSequence :: rest =>
            if block then (readBlockItems false fuel anchors rest).map fun (vs, r) => (.sequence vs, r)
            else none
        | .blockMapping :: rest =>
            if block then (readBlockMembers fuel anchors rest).map fun (ms, r) => (.mapping ms, r)
            else none
        | _ =>
            if p.anchor.isSome || p.tag.isSome then (tagged p.tag true []).map (·, anchors, ts) else none
      return (v, named p anchors v, ts)

def readBlockItems (compact : Bool) : Nat → Anchors → List YamlToken → Option (Read (List Yaml))
  | 0, _, _ => none
  | fuel + 1, anchors, .blockEntry :: rest => do
      let (v, anchors, rest) ← if endsEntry compact rest then some (empty, anchors, rest)
        else readNode true false fuel anchors rest
      let (vs, anchors, rest) ← readBlockItems compact fuel anchors rest
      return (v :: vs, anchors, rest)
  | _ + 1, anchors, ts =>
      if compact then some ([], anchors, ts)
      else match ts with
        | .blockEnd :: rest => some ([], anchors, rest)
        | _ => none

def readBlockMembers : Nat → Anchors → List YamlToken → Option (Read (List (Yaml × Yaml)))
  | 0, _, _ => none
  | _ + 1, anchors, .blockEnd :: rest => some ([], anchors, rest)
  | fuel + 1, anchors, .key :: rest => do
      let (k, anchors, rest) ← if endsMember rest then some (empty, anchors, rest)
        else readNode true true fuel anchors rest
      let (v, anchors, rest) ← match rest with
        | .value :: after =>
            (if endsMember after then some (empty, anchors, after)
              else readNode true true fuel anchors after)
        | _ => some (empty, anchors, rest)
      let (ms, anchors, rest) ← readBlockMembers fuel anchors rest
      return ((k, v) :: ms, anchors, rest)
  | _ + 1, _, _ => none

def readFlowMember : Nat → Anchors → List YamlToken → Option (Read (Yaml × Yaml))
  | 0, _, _ => none
  | fuel + 1, anchors, ts => do
      let isEmpty := endsFlow ts || ts.head? == some .value
      let (k, anchors, ts) ← if isEmpty then some (empty, anchors, ts)
        else readNode false false fuel anchors ts
      match ts with
      | .value :: after =>
          if endsFlow after then return ((k, empty), anchors, after)
          else
            let (v, anchors, after) ← readNode false false fuel anchors after
            return ((k, v), anchors, after)
      | _ => return ((k, empty), anchors, ts)

def readFlowItems (first : Bool) : Nat → Anchors → List YamlToken → Option (Read (List Yaml))
  | 0, _, _ => none
  | fuel + 1, anchors, ts =>
      match ts with
      | .flowSequenceEnd :: rest => some ([], anchors, rest)
      | _ => do
          let ts ← if first then some ts else match ts with
            | .flowEntry :: rest => some rest
            | _ => none
          match ts with
          | .flowSequenceEnd :: rest => return ([], anchors, rest)
          | .key :: rest =>
              let (m, anchors, rest) ← readFlowMember fuel anchors rest
              let (vs, anchors, rest) ← readFlowItems false fuel anchors rest
              return (.mapping [m] :: vs, anchors, rest)
          | _ =>
              let (v, anchors, rest) ← readNode false false fuel anchors ts
              let (vs, anchors, rest) ← readFlowItems false fuel anchors rest
              return (v :: vs, anchors, rest)

/-- Reads the members of a flow mapping; one without a mark is a key alone. -/
def readFlowMembers (first : Bool) : Nat → Anchors → List YamlToken → Option (Read (List (Yaml × Yaml)))
  | 0, _, _ => none
  | fuel + 1, anchors, ts =>
      match ts with
      | .flowMappingEnd :: rest => some ([], anchors, rest)
      | _ => do
          let ts ← if first then some ts else match ts with
            | .flowEntry :: rest => some rest
            | _ => none
          match ts with
          | .flowMappingEnd :: rest => return ([], anchors, rest)
          | .key :: rest =>
              let (m, anchors, rest) ← readFlowMember fuel anchors rest
              let (ms, anchors, rest) ← readFlowMembers false fuel anchors rest
              return (m :: ms, anchors, rest)
          | _ =>
              let (k, anchors, rest) ← readNode false false fuel anchors ts
              let (ms, anchors, rest) ← readFlowMembers false fuel anchors rest
              return ((k, empty) :: ms, anchors, rest)

end

/-- The tokens of the first document's value; none when there is nothing to read, or a directive has
no document after it. -/
def content? (ts : List YamlToken) : Option (List YamlToken) :=
  match ts.dropWhile (· == .documentEnd) with
  | .directive :: rest =>
      match rest.dropWhile (· == .directive) with
      | .documentStart :: after => some after
      | _ => some [.flaw]
  | .documentStart :: rest => some rest
  | [] => none
  | rest => some rest

def endsDocument : List YamlToken → Bool
  | [] => true
  | .documentStart :: _ | .documentEnd :: _ | .directive :: _ => true
  | _ => false

/-! ## Merged mappings -/

def isMergeKey : Yaml → Bool
  | .scalar plain text => plain && text == Bytes.ofString "<<"
  | _ => false

def distinctMembers? : Yaml → Option (List (Yaml × Yaml))
  | .mapping ms => if distinctKeys ms then some ms else none
  | _ => none

/-- The members that a merged value brings: those of a mapping, or of several in a sequence. -/
def mergedMembers? : Yaml → Option (List (Yaml × Yaml))
  | .sequence vs => (vs.mapM distinctMembers?).map List.flatten
  | v => distinctMembers? v

def withMembers (ms more : List (Yaml × Yaml)) : List (Yaml × Yaml) :=
  more.foldl (fun acc m => if acc.any fun k => sameKey k.1 m.1 then acc else acc ++ [m]) ms

/-- A mapping without its merge key; what it names is taken over. -/
def mergeOnce? (ms : List (Yaml × Yaml)) : Option (List (Yaml × Yaml)) :=
  match ms.partition fun m => isMergeKey m.1 with
  | ([], own) => some own
  | ([(_, v)], own) => (mergedMembers? v).map (withMembers own)
  | _ => none

mutual

/-- A value with all its merge keys resolved, from the inside out. -/
def merge? : Yaml → Option Yaml
  | .scalar plain text => some (.scalar plain text)
  | .sequence vs => (mergeItems? vs).map .sequence
  | .mapping ms => ((mergeValues? ms).bind mergeOnce?).map .mapping

def mergeItems? : List Yaml → Option (List Yaml)
  | [] => some []
  | v :: vs => do
      let v ← merge? v
      let vs ← mergeItems? vs
      return v :: vs

def mergeValues? : List (Yaml × Yaml) → Option (List (Yaml × Yaml))
  | [] => some []
  | (k, v) :: ms => do
      let v ← merge? v
      let ms ← mergeValues? ms
      return (k, v) :: ms

end

/-- The value of the first document in a text; an empty text stands for an empty scalar. -/
def read? (s : Bytes) : Option Yaml := do
  let rs ← YamlToken.characters? s
  match content? (YamlToken.ofCharacters rs) with
  | none => some empty
  | some ts =>
      if endsDocument ts then some empty
      else
        let (v, _, rest) ← readNode true false (2 * ts.length + 2) [] ts
        if rest.head? == some .flaw then none else v.merge?

end TagLoom.Yaml

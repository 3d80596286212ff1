import TagLoom.Unicode.Case
import TagLoom.Template.Name

/-!
# Places in HTML

Where in an HTML document a piece of output stands, and how text moves that place on.  The
place decides how a value written there has to be escaped.
-/

namespace TagLoom

/-- The tag being written: its lower-case element name and whether it is an end tag. -/
structure OpenTag where
  elem : Bytes
  closing : Bool
deriving DecidableEq, Inhabited

inductive Markup where
  | text
  | comment
  /-- Inside the content of a raw-text element. -/
  | rawText (elem : Bytes)
  | tag (t : OpenTag)
  | attrName (t : OpenTag) (attr : Bytes)
  | afterAttrName (t : OpenTag) (attr : Bytes)
  | beforeValue (t : OpenTag) (attr : Bytes)
  | quotedValue (t : OpenTag) (attr : Bytes) (quote : UInt8)
  | unquotedValue (t : OpenTag) (attr : Bytes)
deriving DecidableEq, Inhabited

namespace Markup

def label : Markup → Bytes
  | .text => "text"
  | .comment => "comment"
  | .rawText _ => "raw text"
  | .tag _ => "tag"
  | .attrName _ _ => "attribute name"
  | .afterAttrName _ _ => "after attribute name"
  | .beforeValue _ _ => "before attribute value"
  | .quotedValue _ _ _ => "quoted attribute"
  | .unquotedValue _ _ => "unquoted attribute"

def elem : Markup → Bytes
  | .text | .comment => []
  | .rawText e => e
  | .tag t | .attrName t _ | .afterAttrName t _ | .beforeValue t _ | .quotedValue t _ _
  | .unquotedValue t _ => t.elem

def attr : Markup → Bytes
  | .text | .comment | .rawText _ | .tag _ => []
  | .attrName _ a | .afterAttrName _ a | .beforeValue _ a | .quotedValue _ a _
  | .unquotedValue _ a => a

def quote? : Markup → Option UInt8
  | .quotedValue _ _ q => some q
  | _ => none

def isText (m : Markup) : Bool := m == .text

/-! ## Attributes that hold addresses -/

def urlAttrs : List (Bytes × List Bytes) := [
  ("href", ["a", "area", "link", "base"]),
  ("src", ["audio", "embed", "iframe", "img", "input", "script", "source", "track", "video"]),
  ("srcset", ["img", "source"]),
  ("action", ["form"]),
  ("formaction", ["button", "input"]),
  ("cite", ["blockquote", "del", "ins", "q"]),
  ("data", ["object"]),
  ("poster", ["video"]),
  ("manifest", ["html"])]

/-- The attributes that hold an address on every element. -/
def everywhereUrlAttrs : List Bytes := ["icon", "ping", "usemap", "xmlns"]

def plainAttrHoldsUrl (elem attr : Bytes) : Bool :=
  everywhereUrlAttrs.contains attr ||
    urlAttrs.any fun (name, elems) => name == attr && elems.contains elem

/-- Whether an attribute of an element holds an address.  A namespace other than `xmlns` is
ignored; a `data-` attribute holds one when its name mentions one. -/
def attrHoldsUrl (elem attr : Bytes) : Bool :=
  match attr.findIdx? (· == ':'.toUInt8) with
  | some p =>
      attr.take p == Bytes.ofString "xmlns" || plainAttrHoldsUrl elem (attr.drop (p + 1))
  | none =>
      if Bytes.startsWith attr "data-" then
        let rest := attr.drop 5
        Bytes.includes rest "src" || Bytes.includes rest "url" || Bytes.includes rest "uri"
      else plainAttrHoldsUrl elem attr

def holdsUrl (m : Markup) : Bool := attrHoldsUrl m.elem m.attr

/-! ## Moving on -/

def endsElemName (c : UInt8) : Bool := Name.isSpace c || c == '>'.toUInt8 || c == '/'.toUInt8

def endsAttrName (c : UInt8) : Bool := endsElemName c || c == '='.toUInt8

def isRawElem (elem : Bytes) : Bool :=
  elem == Bytes.ofString "script" || elem == Bytes.ofString "style"

def afterTag (t : OpenTag) : Markup :=
  if !t.closing && isRawElem t.elem then .rawText t.elem else .text

/-- A byte as it enters an attribute name that is already begun: taken as a character and
lower-cased. -/
def attrByte (c : UInt8) : Bytes := Utf8.encode (Unicode.toLower c.toNat)

@[grind =] def step (m : Markup) (c : UInt8) (rest : Bytes) : Markup × Nat :=
  match m with
  | .text =>
      if Bytes.startsWith (c :: rest) "<!--" then (.comment, 3)
      else if c == '<'.toUInt8 then
        match rest with
        | d :: after =>
            if d == '/'.toUInt8 && (after.head?.map Bytes.isLetter).getD false then
              let name := after.takeWhile (!endsElemName ·)
              (.tag ⟨Unicode.lowerText name, true⟩, 1 + name.length)
            else if Bytes.isLetter d then
              let name := rest.takeWhile (!endsElemName ·)
              (.tag ⟨Unicode.lowerText name, false⟩, name.length)
            else (.text, 0)
        | [] => (.text, 0)
      else (.text, 0)
  | .comment => if Bytes.startsWith (c :: rest) "-->" then (.text, 2) else (.comment, 0)
  | .rawText e =>
      if c == '<'.toUInt8 && rest.head? == some '/'.toUInt8 &&
          Bytes.lowerAscii ((rest.drop 1).take e.length) == e then
        (.tag ⟨e, true⟩, 1 + e.length)
      else (.rawText e, 0)
  | .tag t =>
      if c == '>'.toUInt8 then (afterTag t, 0)
      else if Name.isSpace c || c == '/'.toUInt8 then (.tag t, 0)
      else
        let name := c :: rest.takeWhile (!endsAttrName ·)
        if c == '='.toUInt8 then (.attrName t "=", 0)
        else (.attrName t (Unicode.lowerText name), name.length - 1)
  | .afterAttrName t a =>
      if c == '>'.toUInt8 then (afterTag t, 0)
      else if Name.isSpace c || c == '/'.toUInt8 then (.afterAttrName t a, 0)
      else if c == '='.toUInt8 then (.beforeValue t a, 0)
      else
        let name := c :: rest.takeWhile (!endsAttrName ·)
        (.attrName t (Unicode.lowerText name), name.length - 1)
  | .attrName t a =>
      if c == '='.toUInt8 then (.beforeValue t a, 0)
      else if c == '>'.toUInt8 then (afterTag t, 0)
      else if Name.isSpace c then (.afterAttrName t a, 0)
      else (.attrName t (a ++ attrByte c), 0)
  | .beforeValue t a =>
      if Name.isSpace c then (.beforeValue t a, 0)
      else if c == '"'.toUInt8 || c == '\''.toUInt8 then (.quotedValue t a c, 0)
      else if c == '>'.toUInt8 then (afterTag t, 0)
      else (.unquotedValue t a, 0)
  | .quotedValue t a q => (if c == q then .tag t else .quotedValue t a q, 0)
  | .unquotedValue t a =>
      if Name.isSpace c then (.tag t, 0)
      else if c == '>'.toUInt8 then (afterTag t, 0)
      else (.unquotedValue t a, 0)

@[grind =] def advance (m : Markup) : Bytes → Markup
  | [] => m
  | c :: rest =>
      let (next, more) := step m c rest
      advance next (rest.drop more)
  termination_by s => s.length
  decreasing_by simp only [List.length_drop, List.length_cons]; omega

end Markup

end TagLoom

import TagLoom.Address
import TagLoom.Builtin
import TagLoom.Pattern.Reader
import TagLoom.Sanitizer.Token
import TagLoom.Unicode.Category
import TagLoom.Unicode.Letter
import TagLoom.Unicode.Space

/-!
# Sanitized markup

Markup from outside reduced to what a policy lets through: the strict policy keeps text only, the
one for content of users keeps formatting, lists, tables, images and links.

A policy says which elements it lets through, which attributes on them, and what the values of
these must look like.
-/

namespace TagLoom.Sanitizer

inductive ValueRule where
  | any
  | address
  | pattern (source : String)
  /-- Words and simple punctuation. -/
  | words
  /-- An address of words and simple punctuation. -/
  | wordAddress
deriving DecidableEq

/-! ## Kinds of values -/

def integer : ValueRule := .pattern "^[0-9]+$"

def measure : ValueRule := .pattern "^[0-9]+[%]?$"

def number : ValueRule := .pattern "^[-+]?[0-9]*\\.?[0-9]+([eE][-+]?[0-9]+)?$"

def direction : ValueRule := .pattern "(?i)^(rtl|ltr)$"

def moment : ValueRule := .pattern ("^[0-9]\x7b4\x7d(-[0-9]\x7b2\x7d(-[0-9]\x7b2\x7d" ++
  "([ T][0-9]\x7b2\x7d(:[0-9]\x7b2\x7d)\x7b1,2\x7d(.[0-9]\x7b1,6\x7d)?Z?" ++
  "([\\+-][0-9]\x7b2\x7d:[0-9]\x7b2\x7d)?)?)?)?$")

def listType : ValueRule := .pattern "(?i)^(circle|disc|square|a|A|i|I|1)$"

def cellAlign : ValueRule := .pattern "(?i)^(center|justify|left|right|char)$"

def cellVerticalAlign : ValueRule := .pattern "(?i)^(baseline|bottom|middle|top)$"

def imageAlign : ValueRule :=
  .pattern "(?i)^(left|right|top|texttop|middle|absmiddle|baseline|bottom|absbottom)$"

def tokenList : ValueRule := .pattern "^([\\s\\p\x7bL\x7d\\p\x7bN\x7d_-]+)$"

/-! ## Elements -/

def commonAttrs : List (String × ValueRule) := [
  ("dir", direction), ("lang", .pattern "[a-zA-Z]\x7b2,20\x7d"),
  ("id", .pattern "[a-zA-Z0-9\\:\\-_\\.]+"), ("title", .words)]

def elementAttrs : List (List String × List (String × ValueRule)) := [
  (["article", "aside", "figure", "section", "summary", "h1", "h2", "h3", "h4", "h5", "h6", "hgroup",
    "br", "div", "hr", "p", "span", "wbr", "abbr", "acronym", "cite", "code", "dfn", "em", "figcaption",
    "mark", "s", "samp", "strong", "sub", "sup", "var", "b", "i", "pre", "small", "strike", "tt", "u",
    "rp", "rt", "ruby", "dl", "dt", "dd", "caption"], []),
  (["details"], [("open", .pattern "(?i)^(|open)$")]),
  (["blockquote", "q"], [("cite", .address)]),
  (["bdi", "bdo"], [("dir", direction)]),
  (["del", "ins"], [("cite", .wordAddress), ("datetime", moment)]),
  (["time"], [("datetime", moment)]),
  (["a"], [("href", .address)]),
  (["ol", "ul"], [("type", listType)]),
  (["li"], [("type", listType), ("value", integer)]),
  (["table"], [("height", measure), ("width", measure), ("summary", .words)]),
  (["col", "colgroup"], [("align", cellAlign), ("height", measure), ("width", measure),
    ("span", integer), ("valign", cellVerticalAlign)]),
  (["thead", "tbody", "tfoot", "tr"], [("align", cellAlign), ("valign", cellVerticalAlign)]),
  (["td", "th"], [("colspan", integer), ("rowspan", integer), ("height", measure), ("width", measure),
    ("align", cellAlign), ("valign", cellVerticalAlign), ("abbr", .words), ("headers", tokenList),
    ("scope", .pattern "(?i)(?:row|col)(?:group)?"), ("nowrap", .any)]),
  (["img"], [("align", imageAlign), ("alt", .words), ("height", measure), ("width", measure),
    ("src", .address), ("usemap", .pattern "(?i)^#[\\p\x7bL\x7d\\p\x7bN\x7d_-]+$")]),
  (["meter"], [("value", number), ("min", number), ("max", number), ("low", number),
    ("high", number), ("optimum", number)]),
  (["progress"], [("value", number), ("max", number)]),
  (["map"], [("name", .pattern "^([\\p\x7bL\x7d\\p\x7bN\x7d_-]+)$")]),
  (["area"], [("alt", .words), ("href", .address), ("rel", tokenList),
    ("shape", .pattern "(?i)^(default|circle|rect|poly)$"),
    ("coords", .pattern "^([0-9]+,)+[0-9]+$")])]

def needsAttrs : List Bytes := ["a", "img", "map", "area", "meter", "progress", "bdo"]

def skipped : List Bytes := ["frame", "frameset", "iframe", "noembed", "noframes", "noscript",
  "nostyle", "object", "script", "style", "title"]

/-- The attributes a policy allows on an element; nothing when it drops the element. -/
def allowed? (policy : Policy) (name : Bytes) : Option (List (Bytes × ValueRule)) :=
  match policy with
  | .strict => none
  | .ugc =>
      (elementAttrs.find? fun (names, _) => names.any fun n => Bytes.ofString n == name).map
        fun (_, rules) => (rules ++ commonAttrs).map fun (a, r) => (Bytes.ofString a, r)

/-! ## Values -/

def numberRanges : List (Nat × Nat) := (Unicode.categoryRanges? "N").getD []

def isWordRune (r : Nat) : Bool :=
  Unicode.isLetter r || Unicode.inRanges numberRanges r ||
    r == 32 || r == 9 || r == 10 || r == 12 || r == 13 || (Utf8.runes "-_',[]!./\\()").contains r

def isWords (value : Bytes) : Bool := (Utf8.runes value).all isWordRune

def schemes : List Bytes := ["http", "https", "mailto"]

/-- The address as it is written when it may stay: one with an allowed scheme, or one relative to the
page. -/
def validAddress? (value : Bytes) : Option Bytes := do
  let s := Unicode.trim value
  if s.contains ' '.toUInt8 then failure
  let address ← Address.parse? s
  if !address.scheme.isEmpty && !schemes.contains address.scheme then failure
  let written := address.write
  if written.isEmpty then none else some written

def keepValue? (rule : ValueRule) (value : Bytes) : Option Bytes :=
  match rule with
  | .any => some value
  | .address => validAddress? value
  | .pattern source =>
      match Pattern.parse source with
      | .ok p => if p.isMatch value then some value else none
      | .error _ => none
  | .words => if isWords value then some value else none
  | .wordAddress => if isWords value then validAddress? value else none

def linkElements : List Bytes := ["a", "area"]

/-- Attributes that tell crawlers not to follow the link. -/
def unfollowed (attrs : List (Bytes × Bytes)) : List (Bytes × Bytes) :=
  let rel : Bytes := "rel"
  let nofollow : Bytes := "nofollow"
  if attrs.any (·.1 == rel) then
    attrs.map fun (a, v) =>
      (a, if a == rel && !Bytes.includes v nofollow then v ++ " " ++ nofollow else v)
  else attrs ++ [(rel, nofollow)]

/-- The attributes that stay on an element; a link is not to be followed. -/
def keepAttrs (name : Bytes) (rules : List (Bytes × ValueRule)) (given : List (Bytes × Bytes)) :
    List (Bytes × Bytes) :=
  let kept := given.filterMap fun (a, v) =>
    match rules.find? (·.1 == a) with
    | some (_, rule) => (keepValue? rule v).map (a, ·)
    | none => none
  if linkElements.contains name && kept.any (·.1 == Bytes.ofString "href") then unfollowed kept
  else kept

/-! ## Writing -/

def entity (c : UInt8) : Bytes :=
  if c == '&'.toUInt8 then "&amp;"
  else if c == '\''.toUInt8 then "&#39;"
  else if c == '<'.toUInt8 then "&lt;"
  else if c == '>'.toUInt8 then "&gt;"
  else if c == '"'.toUInt8 then "&#34;"
  else if c == 13 then "&#13;"
  else [c]

def escape (s : Bytes) : Bytes := s.flatMap entity

/-- A value in which quotes and spaces that do not break are spelled out, before it is escaped. -/
def spelledOut (s : Bytes) : Bytes :=
  Bytes.replaceAll (Bytes.replaceAll s (Utf8.encode 0xA0) "&nbsp;") "\"" "&quot;"

def writeAttr (attr : Bytes × Bytes) : Bytes :=
  " " ++ attr.1 ++ "=\"" ++ escape (spelledOut attr.2) ++ "\""

def writeStart (name : Bytes) (attrs : List (Bytes × Bytes)) (selfClosing : Bool) : Bytes :=
  "<" ++ name ++ attrs.flatMap writeAttr ++
    (if selfClosing then Bytes.ofString "/>" else ">")

/-- What has been written and what is known of the elements around. -/
structure State where
  out : Bytes
  /-- The element whose start was last. -/
  last : Bytes
  /-- The dropped elements whose end is to be dropped too. -/
  dropped : List Bytes
  /-- Whether content is being skipped. -/
  skipping : Bool
  /-- The starts of elements skipped with their content less their ends. -/
  depth : Int

def State.put (st : State) (s : Bytes) : State :=
  if st.skipping then st else { st with out := st.out ++ s }

def State.skip (st : State) : State := { st with skipping := true, depth := st.depth + 1 }

/-- Meets the end of such an element; what follows counts again when starts and ends balance. -/
def State.unskip (st : State) : State :=
  let depth := st.depth - 1
  { st with depth, skipping := st.skipping && depth != 0 }

def isCode (name : Bytes) : Bool := name == Bytes.ofString "script" || name == Bytes.ofString "style"

def step (policy : Policy) (st : State) : Token → State
  | .comment => st
  | .text s => if isCode st.last then st else st.put (escape s)
  | .start name given closing =>
      let st := if closing then st else { st with last := name }
      if isCode name then st
      else match allowed? policy name with
        | none =>
            if skipped.contains name && !closing then st.skip else st
        | some rules =>
            let kept := keepAttrs name rules given
            if kept.isEmpty && needsAttrs.contains name then
              if closing then st else { st with dropped := name :: st.dropped }
            else st.put (writeStart name kept closing)
  | .stop name =>
      let st := if st.last == name then { st with last := [] } else st
      if isCode name then st
      else if st.dropped.head? == some name then { st with dropped := st.dropped.drop 1 }
      else match allowed? policy name with
        | none => if skipped.contains name then st.unskip else st
        | some _ => st.put ("</" ++ name ++ ">")

/-- Markup as a policy lets it through; what is blank stays as it is. -/
def sanitize (policy : Policy) (source : Bytes) : Bytes :=
  if (Unicode.trim source).isEmpty then source
  else ((tokens (source.length + 1) [] source).foldl (step policy) ⟨[], [], [], false, 0⟩).out

end TagLoom.Sanitizer

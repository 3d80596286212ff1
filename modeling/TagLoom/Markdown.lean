import TagLoom.Markdown.Block
import TagLoom.Markdown.Inline

/-!
# Markdown

Markdown documents as HTML.  Markup in a document is left out, and so are addresses that may run
code.
-/

namespace TagLoom.Markdown

/-! ## Running text -/

def omitted : Bytes := "<!-- raw HTML omitted -->"

mutual

/-- The text of a part as it stands in the source, without line ends. -/
def plainText : Inline → Bytes
  | .text s _ => s
  | .code s => s
  | .emphasis _ ps | .link _ ps | .image _ ps => plainTextOf ps
  | .selfLink s _ => s
  | .markup => []

def plainTextOf : List Inline → Bytes
  | [] => []
  | p :: ps => plainText p ++ plainTextOf ps

end

def between (opening closing : Bytes) (pieces : Pieces) : Pieces := opening :: (pieces ++ [closing])

def inElement (tag : Bytes) (pieces : Pieces) (closing : Bytes) : Pieces :=
  between ("<" ++ tag ++ ">") ("</" ++ tag ++ ">" ++ closing) pieces

def titleAttr (t : Target) : Pieces :=
  match t.title with
  | some title => between " title=\"" "\"" (textPieces title)
  | none => []

def lineEndPieces : LineEnd → Pieces
  | .none => []
  | .soft => ["\n"]
  | .hard => ["<br>\n"]

def selfLinkPieces (s : Bytes) (isMail : Bool) : Pieces :=
  let scheme : Bytes :=
    Bytes.when (isMail && !Bytes.startsWith (Bytes.lowerAscii s) "mailto:") "mailto:"
  ["<a href=\"", scheme, escape (percentEncode s), "\">", escape s, "</a>"]

mutual

def renderInline : Inline → Pieces
  | .text s ending => textPieces s ++ lineEndPieces ending
  | .code s => inElement "code" (rawPieces s) []
  | .emphasis strong ps => inElement (if strong then "strong" else "em") (renderInlines ps) []
  | .link t ps =>
      between "<a href=\"" "\"" [address t.address] ++ titleAttr t ++ between ">" "</a>" (renderInlines ps)
  | .image t ps =>
      between "<img src=\"" "\" alt=\"" [address t.address] ++
        between (escape (plainTextOf ps)) ">" ("\"" :: titleAttr t)
  | .selfLink s isMail => selfLinkPieces s isMail
  | .markup => [omitted]

def renderInlines : List Inline → Pieces
  | [] => []
  | p :: ps => renderInline p ++ renderInlines ps

end

/-! ## Blocks -/

def renderText (defs : Definitions) (lines : List TextLine) : Pieces :=
  renderInlines (parseInline defs lines)

def isText : Block → Bool
  | .text _ => true
  | _ => false

def omittedLine : Bytes := omitted ++ "\n"

def languageAttr (language : Option Bytes) : Pieces :=
  match language with
  | some l => between " class=\"language-" "\"" (textPieces l)
  | none => []

def startAttr (start : Option Nat) : Bytes :=
  match start with
  | some n => Bytes.when (n != 1) (" start=\"" ++ Bytes.ofNat n ++ "\"")
  | none => []

mutual

def renderBlock (defs : Definitions) (followed : Bool) : Block → Pieces
  | .paragraph lines => inElement "p" (renderText defs lines) "\n"
  | .text lines => renderText defs lines ++ [Bytes.when (followed && !lines.isEmpty) "\n"]
  | .heading level lines => inElement ("h" ++ Bytes.ofNat level) (renderText defs lines) "\n"
  | .rule => ["<hr>\n"]
  | .code language lines =>
      between "<pre><code" ">" (languageAttr language) ++ lines.flatMap rawPieces ++
        [Bytes.ofString "</code></pre>\n"]
  | .quote blocks => between "<blockquote>\n" "</blockquote>\n" (renderBlocks defs blocks)
  | .list start items =>
      let tag : Bytes := if start.isSome then "ol" else "ul"
      between ("<" ++ tag ++ startAttr start ++ ">\n") ("</" ++ tag ++ ">\n") (renderBlocks defs items)
  | .item blocks =>
      between ("<li>" ++ Bytes.when ((blocks.head?.map (!isText ·)).getD false) "\n") "</li>\n"
        (renderBlocks defs blocks)
  | .markup closed => [omittedLine, Bytes.when closed omittedLine]

def renderBlocks (defs : Definitions) : List Block → Pieces
  | [] => []
  | b :: bs => renderBlock defs (!bs.isEmpty) b ++ renderBlocks defs bs

end

/-! ## Output -/

def bufferSize : Nat := 4096

/-- A buffer under way: what it holds, and the writes so far, the last one first. -/
structure Buffer where
  held : Bytes
  heldSize : Nat
  writes : List Bytes

namespace Buffer

/-- Puts a piece into the buffer.  A full buffer is written; a piece that is too long for an empty
buffer is written at once. -/
def put (b : Buffer) (piece : Bytes) : Buffer :=
  let room := bufferSize - b.heldSize
  if piece.length ≤ room then
    { b with held := b.held ++ piece, heldSize := b.heldSize + piece.length }
  else if b.heldSize == 0 then { b with writes := piece :: b.writes }
  else
    let writes := (b.held ++ piece.take room) :: b.writes
    let rest := piece.drop room
    if rest.length ≤ bufferSize then ⟨rest, rest.length, writes⟩ else ⟨[], 0, rest :: writes⟩

def flush (b : Buffer) : List Bytes :=
  (if b.heldSize == 0 then b.writes else b.held :: b.writes).reverse

end Buffer

def buffered (pieces : Pieces) : List Bytes := (pieces.foldl Buffer.put ⟨[], 0, []⟩).flush

def htmlWrites (source : Bytes) : List Bytes :=
  let (blocks, defs) := parseBlocks source
  buffered (renderBlocks defs blocks)

def toHtml (source : Bytes) : Bytes := (htmlWrites source).flatten

end TagLoom.Markdown

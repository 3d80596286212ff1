import TagLoom.Bytes

/-!
# Escaping

How a value is written into a page so that it stays a value.
-/

namespace TagLoom

/-- The ways to write a value: as text, as an attribute value, as an address in an attribute
value, or as it is. -/
inductive Escape where
  | html
  | attr
  | url
  | none
deriving DecidableEq, Inhabited

namespace Escape

def entity (c : UInt8) : Bytes :=
  if c == '&'.toUInt8 then "&amp;"
  else if c == '<'.toUInt8 then "&lt;"
  else if c == '>'.toUInt8 then "&gt;"
  else if c == '"'.toUInt8 then "&#34;"
  else if c == '\''.toUInt8 then "&#39;"
  else [c]

def escapeHtml (s : Bytes) : Bytes := s.flatMap entity

def refusedAddress : Bytes := "about:invalid#TemplFailedSanitizationURL"

def safeSchemes : List Bytes := ["http", "https", "mailto", "tel", "ftp", "ftps"]

/-- The scheme of an address: what stands before the first colon, unless a slash comes first. -/
def scheme? (s : Bytes) : Option Bytes :=
  (Bytes.cut? s ":").bind fun (before, _) =>
    if before.contains ('/'.toUInt8) then .none else some before

/-- A scheme without regard to case; the long s is another case of s. -/
def foldScheme (s : Bytes) : Bytes := Bytes.lowerAscii (Bytes.replaceAll s [0xC5, 0xBF] "s")

def safeAddress (s : Bytes) : Bytes :=
  match scheme? s with
  | some scheme => if safeSchemes.contains (foldScheme scheme) then s else refusedAddress
  | .none => s

def apply (e : Escape) (s : Bytes) : Bytes :=
  match e with
  | .none => s
  | .url => escapeHtml (safeAddress s)
  | .html | .attr => escapeHtml s

end Escape

end TagLoom

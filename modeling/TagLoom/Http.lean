import TagLoom.Bytes.Quoted
import TagLoom.Decimal.Read

/-!
# Requests and responses

The parts of a request that matter here, and responses as a status, a content type and a body.
-/

namespace TagLoom

structure HttpRequest where
  method : Bytes
  /-- The path and the query as they are written. -/
  target : Bytes
  body : Bytes
deriving DecidableEq, Inhabited

structure HttpResponse where
  status : Nat
  contentType : Bytes
  body : Bytes
deriving DecidableEq, Inhabited

namespace Http

/-! ## Percent encoding -/

def hexByte? (a b : UInt8) : Option UInt8 := (Decimal.readNat? 16 [a, b]).map Nat.toUInt8

/-- A text without its percent encoding; in a query a plus stands for a space.  None when a percent
sign has no two digits after it. -/
def decode? (plusIsSpace : Bool) : Bytes → Option Bytes
  | [] => some []
  | c :: rest =>
      if c == '%'.toUInt8 then
        match rest with
        | a :: b :: rest => do
            let byte ← hexByte? a b
            let more ← decode? plusIsSpace rest
            return byte :: more
        | _ => none
      else (decode? plusIsSpace rest).map
        ((if plusIsSpace && c == '+'.toUInt8 then ' '.toUInt8 else c) :: ·)

def isPathByte (c : UInt8) : Bool :=
  Bytes.isLetter c || Bytes.isDigit c || ("-_.~$&+,/:;=@".toUTF8.data.contains c)

def percent (c : UInt8) : Bytes := '%'.toUInt8 :: Bytes.upperAscii (Bytes.hex 2 c.toNat)

def encodePath (path : Bytes) : Bytes := path.flatMap fun c => if isPathByte c then [c] else percent c

/-! ## Targets -/

def cutTarget (target : Bytes) : Bytes × Bytes := (Bytes.cut? target "?").getD (target, [])

/-- The path by which a request is routed: without percent encoding, unless the encoding was an
unusual one. -/
def routedPath (raw : Bytes) : Bytes :=
  match decode? false raw with
  | some path => if encodePath path == raw then path else raw
  | none => raw

/-- The pair of a name and a value in a query; none when it is empty or wrongly encoded. -/
def pair? (part : Bytes) : Option (Bytes × Bytes) :=
  if part.isEmpty || part.contains ';'.toUInt8 then none
  else
    let (name, value) := (Bytes.cut? part "=").getD (part, [])
    match decode? true name, decode? true value with
    | some name, some value => some (name, value)
    | _, _ => none

def pairs (query : Bytes) : List (Bytes × Bytes) :=
  (Bytes.splitByte '&'.toUInt8 query).filterMap pair?

def grouped (pairs : List (Bytes × Bytes)) : List (Bytes × List Bytes) :=
  (Bytes.dedup (pairs.map (·.1))).map fun name =>
    (name, (pairs.filter (·.1 == name)).map (·.2))

/-! ## Responses -/

def plainText : Bytes := "text/plain; charset=utf-8"

def markup : Bytes := "text/html; charset=utf-8"

def json : Bytes := "application/json"

def message (status : Nat) (text : Bytes) : HttpResponse := ⟨status, plainText, text ++ "\n"⟩

def notFound : HttpResponse := message 404 "404 page not found"

def notAllowed : HttpResponse := ⟨405, [], []⟩

/-- A response with nothing in it, for a request whose handling broke off. -/
def brokenOff : HttpResponse := ⟨500, [], []⟩

def methods : List Bytes := ["CONNECT", "DELETE", "GET", "HEAD", "OPTIONS", "PATCH", "POST", "PUT",
  "TRACE"]

end Http

end TagLoom

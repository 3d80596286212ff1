import TagLoom.Http

/-!
# Addresses

The address of a link in its parts.  Reading refuses what is not an address; writing puts percent
signs where the grammar needs them, and leaves an unusual encoding that the grammar allows as it is.
-/

namespace TagLoom

namespace Address

/-- The parts of an address that are percent encoded, each by its own rule. -/
inductive Part where
  | user
  | host
  | path
  | fragment
deriving DecidableEq

def Part.plain : Part → Bytes
  | .user => "-_.~$&+,;="
  | .host => "-_.~!$&'()*+,;=:[]<>\""
  | .path => "-_.~$&+,/:;=@"
  | .fragment => "-_.~$&+,/:;=?@!()*"

def Part.keeps (part : Part) (c : UInt8) : Bool :=
  Bytes.isLetter c || Bytes.isDigit c || part.plain.contains c

/-- The bytes that may be written in a part, percent signs included. -/
def Part.allows (part : Part) (c : UInt8) : Bool :=
  part.keeps c || (Bytes.ofString "!$&'()*+,;=:@[]%").contains c

def Part.encode (part : Part) (s : Bytes) : Bytes :=
  s.flatMap fun c => if part.keeps c then [c] else Http.percent c

/-- A part as it is written: as given when all its bytes are allowed there, and else encoded anew. -/
def Part.normal? (part : Part) (s : Bytes) : Option Bytes :=
  (Http.decode? false s).map fun text => if s.all part.allows then s else part.encode text

/-! ## Authorities -/

def isPort : Bytes → Bool
  | [] => true
  | c :: digits => c == ':'.toUInt8 && digits.all Bytes.isDigit

/-- What follows the host proper: after a bracket the rest, else the last colon and the rest. -/
def portOf? (s : Bytes) : Option Bytes :=
  if s.head? == some '['.toUInt8 then
    (Bytes.lastIndexOf? s ']'.toUInt8).map fun i => s.drop (i + 1)
  else some (((Bytes.lastIndexOf? s ':'.toUInt8).map s.drop).getD [])

/-- Whether the bytes of a host may stand there: in percent encoding, only a percent sign and what is
not ASCII. -/
def isHost : Bytes → Bool
  | [] => true
  | c :: rest =>
      if c == '%'.toUInt8 then
        match rest with
        | a :: b :: rest =>
            (match Http.hexByte? a b with
              | some byte => byte ≥ 128 || byte == '%'.toUInt8
              | none => false) && isHost rest
        | _ => false
      else (c ≥ 128 || Part.host.keeps c) && isHost rest

def host? (s : Bytes) : Option Bytes := do
  let port ← portOf? s
  if isPort port && isHost s then (Http.decode? false s).map Part.host.encode else none

def isUserByte (c : UInt8) : Bool :=
  Bytes.isLetter c || Bytes.isDigit c || (Bytes.ofString "-._:~!$&'()*+,;=%@").contains c

/-- The name of a user and the password after a colon, as they are written. -/
def user? (s : Bytes) : Option Bytes :=
  if !s.all isUserByte then none
  else match Bytes.cut? s ":" with
    | some (name, password) => do
        let name ← Http.decode? false name
        let password ← Http.decode? false password
        return Part.user.encode name ++ ":" ++ Part.user.encode password
    | none => (Http.decode? false s).map Part.user.encode

end Address

structure Authority where
  user : Option Bytes
  host : Bytes
deriving DecidableEq

inductive AddressBody where
  /-- A text without structure, as after `mailto:`. -/
  | text (s : Bytes)
  | located (authority : Option Authority) (path : Bytes)
deriving DecidableEq

structure Address where
  scheme : Bytes
  body : AddressBody
  query : Option Bytes
  fragment : Bytes
deriving DecidableEq

namespace Address

/-! ## Reading -/

/-- The scheme and what follows its colon; none when a colon comes first. -/
def cutScheme? (s : Bytes) : Option (Bytes × Bytes) :=
  let word := s.takeWhile fun c =>
    Bytes.isLetter c || Bytes.isDigit c || (Bytes.ofString "+-.").contains c
  match s.drop word.length with
  | c :: rest =>
      if c != ':'.toUInt8 then some ([], s)
      else match word.head? with
        | none => none
        | some first => if Bytes.isLetter first then some (Bytes.lowerAscii word, rest) else some ([], s)
  | [] => some ([], s)

def authority? (s : Bytes) : Option Authority :=
  match Bytes.lastIndexOf? s '@'.toUInt8 with
  | none => (host? s).map (⟨none, ·⟩)
  | some i => do
      let host ← host? (s.drop (i + 1))
      let user ← user? (s.take i)
      return ⟨some user, host⟩

def firstSegment (path : Bytes) : Bytes := path.takeWhile (· != '/'.toUInt8)

/-- What stands between the scheme and the query.  Three slashes start a path when there is no
scheme, and a first segment with a colon would read as a scheme. -/
def body? (scheme s : Bytes) : Option AddressBody :=
  let noScheme := scheme.isEmpty
  if !Bytes.startsWith s "/" && !noScheme then some (.text s)
  else if !Bytes.startsWith s "/" && (firstSegment s).contains ':'.toUInt8 then none
  else if Bytes.startsWith s "//" && !(noScheme && Bytes.startsWith s "///") then do
    let authority ← authority? (firstSegment (s.drop 2))
    let path ← Part.path.normal? ((s.drop 2).dropWhile (· != '/'.toUInt8))
    return .located (some authority) path
  else (Part.path.normal? s).map (.located none)

def parse? (s : Bytes) : Option Address := do
  if s.any fun c => c < 32 || c == 127 then failure
  let (front, fragment) := (Bytes.cut? s "#").getD (s, [])
  let (scheme, rest) ← cutScheme? front
  let (rest, query) := match Bytes.cut? rest "?" with
    | some (rest, query) => (rest, some query)
    | none => (rest, none)
  let body ← body? scheme rest
  let fragment ← Part.fragment.normal? fragment
  return ⟨scheme, body, query, fragment⟩

/-! ## Writing -/

def writeAuthority (a : Authority) : Bytes :=
  (match a.user with
    | some user => user ++ Bytes.ofString "@"
    | none => []) ++ a.host

def writeBody (scheme : Bytes) : AddressBody → Bytes
  | .text s => s
  | .located none path =>
      if scheme.isEmpty && (firstSegment path).contains ':'.toUInt8 then "./" ++ path else path
  | .located (some authority) path =>
      let silent := authority.user.isNone && authority.host.isEmpty && (scheme.isEmpty || path.isEmpty)
      (if silent then [] else Bytes.ofString "//" ++ writeAuthority authority) ++ path

def write (a : Address) : Bytes :=
  (if a.scheme.isEmpty then [] else a.scheme ++ Bytes.ofString ":") ++ writeBody a.scheme a.body ++
    (match a.query with
      | some query => Bytes.ofString "?" ++ query
      | none => []) ++
    (if a.fragment.isEmpty then [] else Bytes.ofString "#" ++ a.fragment)

end Address

end TagLoom

import TagLoom.Choice
import TagLoom.Settings.Value

/-!
# Flags

Flags of a command line: `--name value`, `--name=value`, `-n value`, `-nvalue`, and letters of
switches in a row.  Arguments that are no flags may stand between flags; `--` ends the flags.
-/

namespace TagLoom

inductive FlagKind where
  | text
  | number
  /-- A switch is on when no value is given. -/
  | switch
  /-- One of some words in any letter case. -/
  | choice (words : List Bytes)
deriving DecidableEq, Inhabited

structure Flag where
  name : Bytes
  short : Option UInt8
  kind : FlagKind
  /-- The value without the flag, as text. -/
  standard : Bytes
  about : Bytes
  /-- The field of the settings the flag chooses, if it is one. -/
  field : Option (List Bytes)
deriving DecidableEq, Inhabited

inductive FlagValue where
  | text (s : Bytes)
  | number (n : Int)
  | switch (on : Bool)
deriving DecidableEq, Inhabited

def FlagValue.toSetting : FlagValue → Setting
  | .text s => .text s
  | .number n => .int n
  | .switch b => .bool b

inductive FlagError where
  | malformed (arg : Bytes)
  | unknown (name : Bytes)
  /-- A letter that is no flag, and the letters from it on. -/
  | unknownLetter (letter : UInt8) (letters : Bytes)
  | noValue (arg : Bytes)
  | noLetterValue (letter : UInt8) (letters : Bytes)
  | refused (flag : Flag) (value cause : Bytes)
deriving DecidableEq

namespace Flag

def title (f : Flag) : Bytes :=
  (match f.short with
    | some c => "-" ++ [c] ++ ", "
    | none => []) ++ "--" ++ f.name

def isSwitch (f : Flag) : Bool := f.kind == .switch

def accept (f : Flag) (value : Bytes) : Except FlagError FlagValue :=
  match f.kind with
  | .text => .ok (.text value)
  | .choice words =>
      match Choice.refusal? value words with
      | none => .ok (.text value)
      | some cause => .error (.refused f value cause)
  | .number =>
      match Setting.readInt value with
      | .ok n => .ok (.number n)
      | .error e => .error (.refused f value (e.report "ParseInt" value))
  | .switch =>
      match Setting.readBool? value with
      | some b => .ok (.switch b)
      | none => .error (.refused f value (Decimal.ReadError.malformed.report "ParseBool" value))

end Flag

namespace FlagError

def quotedLetter (c : UInt8) : Bytes := "'" ++ Bytes.quoteInner 0x27 (Utf8.encode c.toNat) ++ "'"

def message : FlagError → Bytes
  | .malformed arg => "bad flag syntax: " ++ arg
  | .unknown name => "unknown flag: --" ++ name
  | .unknownLetter c letters => "unknown shorthand flag: " ++ quotedLetter c ++ " in -" ++ letters
  | .noValue arg => "flag needs an argument: " ++ arg
  | .noLetterValue c letters => "flag needs an argument: " ++ quotedLetter c ++ " in -" ++ letters
  | .refused f value cause =>
      "invalid argument " ++ Bytes.quote value ++ " for " ++ Bytes.quote f.title ++ " flag: " ++ cause

end FlagError

/-- The arguments of a command: flags with their values, the first one first, and other words. -/
structure Arguments where
  flags : List (Flag × FlagValue)
  words : List Bytes
deriving DecidableEq, Inhabited

namespace Arguments

/-- Flags with their values, and whether the last one takes the next argument for its value. -/
abbrev Reading := Except FlagError (List (Flag × FlagValue) × Bool)

def one (f : Flag) (value : Bytes) (takesNext : Bool) : Reading :=
  (f.accept value).map fun v => ([(f, v)], takesNext)

def switchedOn : Bytes := "true"

def readLong (flags : List Flag) (arg : Bytes) (next : Option Bytes) : Reading :=
  let body := arg.drop 2
  let name := body.takeWhile (· != '='.toUInt8)
  if name.isEmpty || name.head? == some '-'.toUInt8 then .error (.malformed arg)
  else match flags.find? (·.name == name) with
    | none => .error (.unknown name)
    | some f =>
        if name.length < body.length then one f (body.drop (name.length + 1)) false
        else if f.isSwitch then one f switchedOn false
        else match next with
          | some value => one f value true
          | none => .error (.noValue arg)

def readLetters (flags : List Flag) (next : Option Bytes) : Bytes → Reading
  | [] => .ok ([], false)
  | c :: rest =>
      match flags.find? (·.short == some c) with
      | none => .error (.unknownLetter c (c :: rest))
      | some f =>
          if rest.length > 1 && rest.head? == some '='.toUInt8 then one f (rest.drop 1) false
          else if f.isSwitch then do
            let (first, _) ← one f switchedOn false
            let (more, takesNext) ← readLetters flags next rest
            return (first ++ more, takesNext)
          else if !rest.isEmpty then one f rest false
          else match next with
            | some value => one f value true
            | none => .error (.noLetterValue c (c :: rest))

def passedOver : Bytes := "test."

def isFlag (arg : Bytes) : Bool := arg.head? == some '-'.toUInt8 && arg.length > 1

def readFlag (flags : List Flag) (arg : Bytes) (next : Option Bytes) : Reading :=
  if Bytes.startsWith arg "--" then readLong flags arg next
  else if Bytes.startsWith (arg.drop 1) passedOver then .ok ([], false)
  else readLetters flags next (arg.drop 1)

def read (flags : List Flag) : List Bytes → Except FlagError Arguments
  | [] => .ok ⟨[], []⟩
  | arg :: rest =>
      if !isFlag arg then (read flags rest).map fun a => { a with words := arg :: a.words }
      else if arg == Bytes.ofString "--" then .ok ⟨[], rest⟩
      else match readFlag flags arg rest.head?, rest with
        | .error e, _ => .error e
        | .ok (values, true), _ :: rest =>
            (read flags rest).map fun a => { a with flags := values ++ a.flags }
        | .ok (values, _), rest => (read flags rest).map fun a => { a with flags := values ++ a.flags }

def get? (a : Arguments) (name : String) : Option FlagValue :=
  (a.flags.reverse.find? (·.1.name == Bytes.ofString name)).map (·.2)

def textOr (a : Arguments) (name : String) (fallback : Bytes) : Bytes :=
  match a.get? name with
  | some (.text s) => s
  | _ => fallback

def isOn (a : Arguments) (name : String) : Bool := a.get? name == some (.switch true)

def chosen (a : Arguments) : Setting :=
  a.flags.foldl (fun (acc : Setting) (f, v) =>
    match f.field with
    | some path => acc.put path v.toSetting
    | none => acc) (.table [])

end Arguments

end TagLoom

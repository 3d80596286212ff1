import TagLoom.Decimal.Read

/-!
# Points in time

Dates with a time of day and an offset from universal time.
-/

namespace TagLoom

/-- A point in time as it is written; the offset is in seconds. -/
structure Timestamp where
  year : Nat
  month : Nat
  day : Nat
  hour : Nat
  minute : Nat
  second : Nat
  /-- Whether there is a part of a second. -/
  fraction : Bool
  offset : Int
deriving DecidableEq, Inhabited

namespace Timestamp

def isLeap (year : Nat) : Bool := year % 4 == 0 && (year % 100 != 0 || year % 400 == 0)

def daysIn (year month : Nat) : Nat :=
  if month == 2 then (if isLeap year then 29 else 28)
  else if [4, 6, 9, 11].contains month then 30 else 31

/-! ## Reading -/

def number? (single : Bool) (s : Bytes) : Option (Nat × Bytes) :=
  match s with
  | a :: b :: rest =>
      if !Bytes.isDigit a then none
      else if Bytes.isDigit b then some ((a.toNat - 48) * 10 + (b.toNat - 48), rest)
      else if single then some (a.toNat - 48, b :: rest) else none
  | [a] => if single && Bytes.isDigit a then some (a.toNat - 48, []) else none
  | [] => none

def after? (c : UInt8) : Bytes → Option Bytes
  | d :: rest => if c == d then some rest else none
  | [] => none

/-- Drops a part of a second; says whether it was more than nothing. -/
def cutFraction (s : Bytes) : Bool × Bytes :=
  match s with
  | mark :: rest =>
      let digits := rest.takeWhile Bytes.isDigit
      if (mark == '.'.toUInt8 || mark == ','.toUInt8) && !digits.isEmpty then
        ((digits.take 9).any (· != '0'.toUInt8), rest.dropWhile Bytes.isDigit)
      else (false, s)
  | [] => (false, [])

def offset? (s : Bytes) : Option Int :=
  match s with
  | [] => none
  | sign :: rest =>
      if sign == 'Z'.toUInt8 && rest.isEmpty then some 0
      else if sign != '+'.toUInt8 && sign != '-'.toUInt8 then none
      else do
        let (hours, rest) ← number? false rest
        let rest ← after? ':'.toUInt8 rest
        let (minutes, rest) ← number? false rest
        if !rest.isEmpty || hours > 24 || minutes > 60 then none
        else
          let seconds : Int := (hours * 60 + minutes) * 60
          return if sign == '-'.toUInt8 then -seconds else seconds

/-- The date at the start of a text, and what follows.  Month and day have two digits each, or one
where short numbers are allowed. -/
def date? (short : Bool) (s : Bytes) : Option (Timestamp × Bytes) := do
  let digits := s.take 4
  if digits.length < 4 || !digits.all Bytes.isDigit then none
  let year ← Decimal.readNat? 10 digits
  let rest ← after? '-'.toUInt8 (s.drop 4)
  let (month, rest) ← number? short rest
  let rest ← after? '-'.toUInt8 rest
  let (day, rest) ← number? short rest
  if month < 1 || month > 12 || day < 1 || day > daysIn year month then none
  else return (⟨year, month, day, 0, 0, 0, false, 0⟩, rest)

/-- The point in time a text spells with a mark between date and time, with or without an
offset. -/
def read? (short : Bool) (mark : UInt8) (zoned : Bool) (s : Bytes) : Option Timestamp := do
  let (date, rest) ← date? short s
  let rest ← after? mark rest
  let (hour, rest) ← number? true rest
  let rest ← after? ':'.toUInt8 rest
  let (minute, rest) ← number? short rest
  let rest ← after? ':'.toUInt8 rest
  let (second, rest) ← number? short rest
  let (fraction, rest) := cutFraction rest
  let offset ← if zoned then offset? rest else if rest.isEmpty then some 0 else none
  if hour > 23 || minute > 59 || second > 59 then none
  else return { date with hour, minute, second, fraction, offset }

def parse? (s : Bytes) : Option Timestamp :=
  (read? false 'T'.toUInt8 true s).or
    ((read? false 'T'.toUInt8 false s).or (read? false ' '.toUInt8 false s))

/-- Whether a text is a date, or a date with a time of day, numbers being short or not. -/
def isLoose (s : Bytes) : Bool :=
  (match date? true s with
    | some (_, rest) => rest.isEmpty
    | none => false) ||
  (read? true 'T'.toUInt8 true s).isSome || (read? true 't'.toUInt8 true s).isSome ||
    (read? true ' '.toUInt8 false s).isSome

/-! ## Writing -/

def padded (width n : Nat) : Bytes :=
  let digits := Bytes.ofNat n
  Bytes.fill (width - digits.length) '0'.toUInt8 ++ digits

def offsetBytes (offset : Int) : Bytes :=
  if offset == 0 then "Z"
  else
    let minutes := offset.natAbs / 60
    (if offset < 0 then "-" else "+") ++ padded 2 (minutes / 60) ++ ":" ++ padded 2 (minutes % 60)

def toBytes (t : Timestamp) : Bytes :=
  padded 4 t.year ++ "-" ++ padded 2 t.month ++ "-" ++ padded 2 t.day ++ "T" ++ padded 2 t.hour ++ ":" ++
    padded 2 t.minute ++ ":" ++ padded 2 t.second ++ offsetBytes t.offset

/-! ## The first instant -/

/-- The days from the first of January of year one; negative before. -/
def dayNumber (t : Timestamp) : Int :=
  let y : Int := (t.year : Int) - 1
  let before := (List.range (t.month - 1)).foldl (fun n m => n + daysIn t.year (m + 1)) 0
  y * 365 + y.fdiv 4 - y.fdiv 100 + y.fdiv 400 + before + t.day - 1

/-- Whether a point in time is the very first of year one, which stands for none. -/
def isZero (t : Timestamp) : Bool :=
  !t.fraction &&
    t.dayNumber * 86400 + (t.hour * 3600 + t.minute * 60 + t.second : Nat) - t.offset == 0

end Timestamp

end TagLoom

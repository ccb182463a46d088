import Unsugar.Text.Unquoted

/-! Dates and times of day. A date may stand alone, and then means its beginning. -/

namespace Unsugar

structure Moment where
  year : Nat
  month : Nat
  day : Nat
  hour : Nat := 0
  minute : Nat := 0
  second : Nat := 0
  nanosecond : Nat := 0
  /-- How many minutes the clock is ahead of universal time. -/
  offset : Int := 0
  deriving DecidableEq

namespace Moment

def isLeap (year : Nat) : Bool := year % 4 == 0 && (year % 100 != 0 || year % 400 == 0)

def daysIn (year month : Nat) : Nat :=
  if month == 2 then if isLeap year then 29 else 28
  else if [4, 6, 9, 11].contains month then 30
  else 31

/-! ## Reading -/

/-- A number of one or two digits. -/
def number? : List Char → Option (Nat × List Char)
  | first :: rest => do
    let high ← Text.digitBelow? 10 first
    match rest with
    | second :: after =>
      match Text.digitBelow? 10 second with
      | some low => some (high * 10 + low, after)
      | none => some (high, rest)
    | [] => some (high, [])
  | [] => none

/-- A number of one or two digits that is not above a limit. -/
def limited? (limit : Nat) (chars : List Char) : Option (Nat × List Char) :=
  (number? chars).filter (·.1 ≤ limit)

/-- What follows a character. -/
def after? (char : Char) : List Char → Option (List Char)
  | found :: rest => if found = char then some rest else none
  | [] => none

/-- A fraction of a second, in nanoseconds; further digits do not count. -/
def fraction (chars : List Char) : Nat × List Char :=
  match chars with
  | mark :: rest =>
    let digits := rest.takeWhile Char.isDigit
    if (mark == '.' || mark == ',') && !digits.isEmpty then
      let counted := (digits ++ List.replicate 9 '0').take 9
      (counted.foldl (fun value digit => value * 10 + (digit.toNat - 0x30)) 0,
        rest.drop digits.length)
    else (0, chars)
  | [] => (0, [])

/-- Reads a time of day. -/
def clock? (date : Moment) (chars : List Char) : Option (Moment × List Char) := do
  let (hour, rest) ← limited? 23 chars
  let (minute, rest) ← limited? 59 (← after? ':' rest)
  let (second, rest) ← limited? 59 (← after? ':' rest)
  let (nanosecond, rest) := fraction rest
  return ({ date with hour, minute, second, nanosecond }, rest)

/-- Reads how far a clock is ahead, in minutes. -/
def offset? : List Char → Option Int
  | ['Z'] => some 0
  | [sign, hour1, hour2, ':', minute1, minute2] => do
    let (hours, _) ← Text.number? 10 2 0 [hour1, hour2]
    let (minutes, _) ← Text.number? 10 2 0 [minute1, minute2]
    if hours > 24 || minutes > 60 then none
    else match sign with
      | '+' => some (hours * 60 + minutes : Nat)
      | '-' => some (-(hours * 60 + minutes : Nat))
      | _ => none
  | _ => none

/-- Reads a date, and the time of day after it. A time after a letter says how far
its clock is ahead; one after spaces does not. -/
def ofChars? (chars : List Char) : Option Moment := do
  let (year, rest) ← Text.number? 10 4 0 chars
  let (month, rest) ← number? (← after? '-' rest)
  let (day, rest) ← number? (← after? '-' rest)
  if month < 1 || 12 < month || day < 1 || daysIn year month < day then none
  else
    let date : Moment := { year, month, day }
    match rest with
    | [] => some date
    | 'T' :: rest | 't' :: rest => do
      let (moment, rest) ← clock? date rest
      return { moment with offset := ← offset? rest }
    | ' ' :: rest => do
      let (moment, rest) ← clock? date (rest.dropWhile (· == ' '))
      if rest.isEmpty then some moment else none
    | _ => none

/-! ## Writing -/

/-- A number with zeros in front. -/
def padded (width value : Nat) : String :=
  let digits := toString value
  "".pushn '0' (width - digits.length) ++ digits

def dateText (moment : Moment) : String :=
  padded 4 moment.year ++ "-" ++ padded 2 moment.month ++ "-" ++ padded 2 moment.day

/-- The fraction of the second, with no more digits than needed. -/
def fractionText (moment : Moment) : String :=
  let digits := ((padded 9 moment.nanosecond).toList.reverse.dropWhile (· == '0')).reverse
  if digits.isEmpty then "" else "." ++ String.ofList digits

def clockText (moment : Moment) : String :=
  padded 2 moment.hour ++ ":" ++ padded 2 moment.minute ++ ":" ++ padded 2 moment.second ++
    moment.fractionText

/-- How far the clock is ahead, with something between hours and minutes. -/
def offsetText (moment : Moment) (between : String) : String :=
  let minutes := moment.offset.natAbs
  (if moment.offset < 0 then "-" else "+") ++ padded 2 (minutes / 60) ++ between ++
    padded 2 (minutes % 60)

/-- A moment as it is written in files. -/
def text (moment : Moment) : String :=
  moment.dateText ++ "T" ++ moment.clockText ++
    (if moment.offset = 0 then "Z" else moment.offsetText ":")

/-- A moment as it is shown to users, who are told the name of the time zone if it
has one. -/
def display (moment : Moment) : String :=
  let offset := moment.offsetText ""
  moment.dateText ++ " " ++ moment.clockText ++ " " ++ offset ++ " " ++
    (if moment.offset = 0 then "UTC" else offset)

end Moment
end Unsugar

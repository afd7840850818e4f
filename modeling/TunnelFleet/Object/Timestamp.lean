import TunnelFleet.Decimal.Unsigned
import TunnelFleet.Text.Basic

namespace TunnelFleet

structure Date where
  year : Int
  month : Nat
  day : Nat
deriving DecidableEq

namespace Date

def isLeapYear (year : Int) : Bool :=
  year % 4 == 0 && (year % 100 != 0 || year % 400 == 0)

def monthLength (year : Int) (month : Nat) : Nat :=
  if month = 2 then if isLeapYear year then 29 else 28
  else if month = 4 ∨ month = 6 ∨ month = 9 ∨ month = 11 then 30
  else 31

def isValid (d : Date) : Bool :=
  1 ≤ d.month && d.month ≤ 12 && 1 ≤ d.day && d.day ≤ monthLength d.year d.month

/-- Days since the first of January 1970. Years are counted from March, so that a leap day is the
last day of its year. -/
def toDays (d : Date) : Int :=
  let year := if d.month ≤ 2 then d.year - 1 else d.year
  let month := if d.month ≤ 2 then d.month + 9 else d.month - 3
  let dayOfYear : Int := ((153 * month + 2) / 5 + d.day : Nat) - 1
  365 * year + year / 4 - year / 100 + year / 400 + dayOfYear - 719468

def ofDays (days : Int) : Date :=
  let shifted := days + 719468
  let era := shifted / 146097
  let dayOfEra := (shifted % 146097).toNat
  let yearOfEra := (dayOfEra - dayOfEra / 1460 + dayOfEra / 36524 - dayOfEra / 146096) / 365
  let dayOfYear := dayOfEra - (365 * yearOfEra + yearOfEra / 4 - yearOfEra / 100)
  let shiftedMonth := (5 * dayOfYear + 2) / 153
  let day := dayOfYear - (153 * shiftedMonth + 2) / 5 + 1
  let month := if shiftedMonth < 10 then shiftedMonth + 3 else shiftedMonth - 9
  let year := era * 400 + yearOfEra + (if month ≤ 2 then 1 else 0)
  ⟨year, month, day⟩

end Date

/-- An instant: whole seconds since the first of January 1970, and nanoseconds after them. A leap
second shares its count with the second before it. -/
structure Timestamp where
  seconds : Int
  leap : Bool := false
  nanoseconds : Nat := 0
deriving DecidableEq

namespace Timestamp

def padded (width n : Nat) : String :=
  let digits := Nat.toDigits 10 n
  String.ofList (List.replicate (width - digits.length) '0' ++ digits)

def yearText (year : Int) : String :=
  if 0 ≤ year ∧ year ≤ 9999 then padded 4 year.toNat
  else (if year < 0 then "-" else "+") ++ padded (if year < 0 then 4 else 5) year.natAbs

def text (t : Timestamp) : String :=
  let date := Date.ofDays (t.seconds / 86400)
  let ofDay := (t.seconds % 86400).toNat
  let second := ofDay % 60 + if t.leap then 1 else 0
  yearText date.year ++ "-" ++ padded 2 date.month ++ "-" ++ padded 2 date.day ++ "T" ++
    padded 2 (ofDay / 3600) ++ ":" ++ padded 2 (ofDay / 60 % 60) ++ ":" ++ padded 2 second ++ "Z"

def number? (most : Nat) (cs : List Char) : Option (Nat × List Char) :=
  let cs := Text.trimLeft cs
  let ds := (cs.take most).takeWhile fun c => (Decimal.digitValue? c).isSome
  (Decimal.digits? ds).map fun n => (n, cs.drop ds.length)

def year? (cs : List Char) : Option (Int × List Char) :=
  match Text.trimLeft cs with
  | '-' :: d :: cs =>
      if Text.isBlank d then none
      else (number? (cs.length + 1) (d :: cs)).map fun found => (-(found.1 : Int), found.2)
  | '+' :: d :: cs =>
      if Text.isBlank d then none
      else (number? (cs.length + 1) (d :: cs)).map fun found => ((found.1 : Int), found.2)
  | cs => (number? 4 cs).map fun found => ((found.1 : Int), found.2)

def mark? (mark : Char) (cs : List Char) : Option (List Char) :=
  match Text.trimLeft cs with
  | c :: cs => if c = mark then some cs else none
  | [] => none

def middle? : List Char → Option (List Char)
  | c :: cs => if c = 'T' ∨ c = 't' ∨ c = ' ' then some cs else none
  | [] => none

/-- The nanoseconds of a fraction of a second. Digits after the ninth are read and count for
nothing. -/
def fraction? : List Char → Option (Nat × List Char)
  | '.' :: cs =>
      let ds := cs.takeWhile fun c => (Decimal.digitValue? c).isSome
      let kept := ds.take 9
      (Decimal.digits? kept).map fun n => (n * Nat.pow 10 (9 - kept.length), cs.drop ds.length)
  | cs => some (0, cs)

def isColonOrBlank (c : Char) : Bool :=
  c == ':' || Text.isBlank c

def pair? : List Char → Option (Nat × List Char)
  | a :: b :: cs => (Decimal.digits? [a, b]).map fun n => (n, cs)
  | _ => none

/-- The seconds by which local time is ahead of universal time, after their sign: hours and minutes
with any colons and blanks between them. -/
def ahead? (cs : List Char) : Option (Int × List Char) := do
  let (hours, cs) ← pair? cs
  let (minutes, cs) ← pair? (cs.dropWhile isColonOrBlank)
  if 24 ≤ hours || 60 ≤ minutes then none
  else some (hours * 3600 + minutes * 60, cs)

def offset? : List Char → Option (Int × List Char)
  | c :: cs =>
      if c = 'Z' ∨ c = 'z' then some (0, cs)
      else if c = '+' then ahead? cs
      else if c = '-' ∨ c = '−' then (ahead? cs).map fun found => (-found.1, found.2)
      else
        match (c :: cs.take 2).map Char.toUpper with
        | ['U', 'T', 'C'] => some (0, cs.drop 2)
        | _ => none
  | [] => none

def isKnownYear (year : Int) : Bool :=
  -262143 ≤ year && year ≤ 262142

/-- Reads a date and time with its offset from universal time. Numbers may be shorter than usual,
and blanks may stand before every part. -/
def ofText? (s : String) : Option Timestamp := do
  let (year, cs) ← year? s.toList
  let (month, cs) ← number? 2 (← mark? '-' cs)
  let (day, cs) ← number? 2 (← mark? '-' cs)
  let (hour, cs) ← number? 2 (← middle? cs)
  let (minute, cs) ← number? 2 (← mark? ':' cs)
  let (second, cs) ← number? 2 (← mark? ':' cs)
  let (nanoseconds, cs) ← fraction? cs
  let (offset, cs) ← offset? (Text.trimLeft cs)
  let date : Date := ⟨year, month, day⟩
  if !(Text.trimLeft cs).isEmpty || !isKnownYear year || !date.isValid || 24 ≤ hour ||
      60 ≤ minute || 60 < second then none
  let ofDay : Int := hour * 3600 + minute * 60 + min second 59
  some ⟨date.toDays * 86400 + ofDay - offset, second == 60, nanoseconds⟩

end Timestamp

end TunnelFleet

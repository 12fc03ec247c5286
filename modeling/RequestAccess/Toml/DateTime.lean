import RequestAccess.Toml.Numbers

/-!
# Dates and times in TOML

A date, a time, or both with or without an offset from universal time. The text that is kept has a
`T` before the time and no zeros at the end of a fraction.
-/

namespace RequestAccess.Toml

/-- Two digits that write a number of at most `last`. -/
def readTwo (last : Nat) : List Char → Option (List Char × List Char)
  | a :: b :: s =>
    if isDigit a && isDigit b && valueIn 10 [a, b] ≤ last then some ([a, b], s) else none
  | _ => none

def isLeapYear (year : Nat) : Bool := year % 4 == 0 && (year % 100 != 0 || year % 400 == 0)

def daysIn (year month : Nat) : Nat :=
  if month = 2 then if isLeapYear year then 29 else 28
  else if month = 4 ∨ month = 6 ∨ month = 9 ∨ month = 11 then 30
  else 31

/-- A date, four digits of a year and two each of a month and a day. -/
def readDate : List Char → Option (List Char × List Char)
  | a :: b :: c :: d :: '-' :: s =>
    let year := [a, b, c, d]
    if !year.all isDigit then none
    else match readTwo 12 s with
      | some (month, '-' :: s) =>
        match readTwo (daysIn (valueIn 10 year) (valueIn 10 month)) s with
        | some (day, s) =>
          if valueIn 10 month = 0 ∨ valueIn 10 day = 0 then none
          else some (year ++ '-' :: month ++ '-' :: day, s)
        | none => none
      | _ => none
  | _ => none

/-- The fraction of a second: nine digits of it count. -/
def readSubsecond : List Char → List Char × List Char
  | '.' :: s =>
    match s.takeWhile isDigit with
    | [] => ([], '.' :: s)
    | digits =>
      let kept := ((digits.take 9).reverse.dropWhile (· == '0')).reverse
      (if kept = [] then [] else '.' :: kept, s.dropWhile isDigit)
  | s => ([], s)

/-- A time to the second, of which there may be sixty. -/
def readTime (s : List Char) : Option (List Char × List Char) :=
  match readTwo 23 s with
  | some (hour, ':' :: s) =>
    match readTwo 59 s with
    | some (minute, ':' :: s) =>
      match readTwo 60 s with
      | some (second, s) =>
        let (fraction, s) := readSubsecond s
        some (hour ++ ':' :: minute ++ ':' :: second ++ fraction, s)
      | none => none
    | _ => none
  | _ => none

def readOffset : List Char → Option (List Char × List Char)
  | 'Z' :: s => some (['Z'], s)
  | 'z' :: s => some (['Z'], s)
  | sign :: s =>
    if sign == '+' || sign == '-' then
      match readTwo 23 s with
      | some (hour, ':' :: s) =>
        match readTwo 59 s with
        | some (minute, s) =>
          let zero := valueIn 10 hour = 0 ∧ valueIn 10 minute = 0
          some ((if zero then '+' else sign) :: hour ++ ':' :: minute, s)
        | none => none
      | _ => none
    else none
  | [] => none

/-- The time behind a date, with its offset, if there is one. -/
def readTimeOfDate : List Char → Option (List Char × List Char)
  | c :: s =>
    if c == 'T' || c == 't' || c == ' ' then
      match readTime s with
      | some (time, s) =>
        match readOffset s with
        | some (offset, s) => some ('T' :: time ++ offset, s)
        | none => some ('T' :: time, s)
      | none => none
    else none
  | [] => none

def readDateTime (s : List Char) : Option (String × List Char) :=
  match readDate s with
  | some (date, s) =>
    match readTimeOfDate s with
    | some (time, s) => some (String.ofList (date ++ time), s)
    | none => some (String.ofList date, s)
  | none => (readTime s).map fun p => (String.ofList p.1, p.2)

example : readDateTime "1979-05-27 07:32:00.500-00:00 #".toList =
    some ("1979-05-27T07:32:00.5+00:00", [' ', '#']) := by decide +kernel

end RequestAccess.Toml

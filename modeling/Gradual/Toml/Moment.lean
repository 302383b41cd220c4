/-!
The dates and times of TOML documents. A date and a time are joined by a letter or a space, and only
a time behind a date may say how far it is from universal time. An hour has a second 60, for leap
seconds.
-/

namespace Gradual.Toml

/-- The number that two digits stand for. -/
def twoDigits? (c d : Char) : Option Nat :=
  if c.isDigit && d.isDigit then some ((c.toNat - '0'.toNat) * 10 + (d.toNat - '0'.toNat)) else none

def isLeapYear (year : Nat) : Bool := year % 4 == 0 && (year % 100 != 0 || year % 400 == 0)

def daysInMonth (year month : Nat) : Nat :=
  if month == 2 then if isLeapYear year then 29 else 28
  else if month == 4 || month == 6 || month == 9 || month == 11 then 30
  else 31

/-- Is the text a day of the calendar: four digits for the year, two for the month and the day? -/
def isDate : List Char → Bool
  | [y, y', y'', y''', '-', m, m', '-', d, d'] =>
    match twoDigits? y y', twoDigits? y'' y''', twoDigits? m m', twoDigits? d d' with
    | some century, some year, some month, some day =>
      1 ≤ month && month ≤ 12 && 1 ≤ day && day ≤ daysInMonth (century * 100 + year) month
    | _, _, _, _ => false
  | _ => false

/-- The digits behind the dot, if there is one, in a time. -/
def afterFraction? : List Char → Option (List Char)
  | '.' :: cs =>
    match cs.takeWhile Char.isDigit with
    | [] => none
    | _ :: _ => some (cs.dropWhile Char.isDigit)
  | cs => some cs

/-- What follows the time of day at the start of a text. -/
def afterTime? : List Char → Option (List Char)
  | h :: h' :: ':' :: m :: m' :: ':' :: s :: s' :: rest =>
    match twoDigits? h h', twoDigits? m m', twoDigits? s s' with
    | some hour, some minute, some second =>
      if hour ≤ 23 ∧ minute ≤ 59 ∧ second ≤ 60 then afterFraction? rest else none
    | _, _, _ => none
  | _ => none

/-- Is the text a distance from universal time? -/
def isOffset : List Char → Bool
  | [z] => z == 'Z' || z == 'z'
  | [sign, h, h', ':', m, m'] =>
    (sign == '+' || sign == '-') &&
      match twoDigits? h h', twoDigits? m m' with
      | some hours, some minutes => hours ≤ 23 && minutes ≤ 59
      | _, _ => false
  | _ => false

def isTime (cs : List Char) : Bool := afterTime? cs == some []

/-- Is the text a time as it may follow a date? -/
def isTimeOfDate (cs : List Char) : Bool :=
  match afterTime? cs with
  | some rest => rest.isEmpty || isOffset rest
  | none => false

/-- Is the word a date, a time, or both with a letter between them? -/
def isMoment (word : List Char) : Bool :=
  isDate word || isTime word ||
    (isDate (word.take 10) &&
      match word.drop 10 with
      | t :: time => (t == 'T' || t == 't') && isTimeOfDate time
      | [] => false)

end Gradual.Toml

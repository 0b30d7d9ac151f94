set_option autoImplicit false

/-!
# Dates and times

A date is written with four digits for the year and two each for month and day, a time with two
digits each for hour, minute and second. Both must be real: a day of the Gregorian calendar,
which is taken to hold for all years from 0000 to 9999, and a time before midnight without a leap
second. A moment is a date and a time with a space between them, or with `T` between them and
followed by `Z` or by an offset.
-/

namespace CompactSchema.Calendar

def twoDigits? (a b : Char) : Option Nat :=
  if a.isDigit && b.isDigit then
    some (10 * (a.toNat - '0'.toNat) + (b.toNat - '0'.toNat))
  else none

def isLeap (year : Nat) : Bool :=
  (year % 4 = 0 && year % 100 ≠ 0) || year % 400 = 0

def daysIn (year month : Nat) : Nat :=
  match month with
  | 1 | 3 | 5 | 7 | 8 | 10 | 12 => 31
  | 4 | 6 | 9 | 11 => 30
  | 2 => if isLeap year then 29 else 28
  | _ => 0

def isDay (year month day : Nat) : Bool := 1 ≤ day && day ≤ daysIn year month

def isClock (hour minute second : Nat) : Bool := hour ≤ 23 && minute ≤ 59 && second ≤ 59

def dateChars (cs : List Char) : Bool :=
  match cs with
  | [a, b, c, d, '-', e, f, '-', g, h] =>
    match twoDigits? a b, twoDigits? c d, twoDigits? e f, twoDigits? g h with
    | some century, some rest, some month, some day => isDay (100 * century + rest) month day
    | _, _, _, _ => false
  | _ => false

def timeChars (cs : List Char) : Bool :=
  match cs with
  | [a, b, ':', c, d, ':', e, f] =>
    match twoDigits? a b, twoDigits? c d, twoDigits? e f with
    | some hour, some minute, some second => isClock hour minute second
    | _, _, _ => false
  | _ => false

/-- A sign and hours and minutes below 24 and 60. No time is `-00:00` off, only `+00:00`. -/
def offsetChars (cs : List Char) : Bool :=
  match cs with
  | [sign, a, b, ':', c, d] =>
    match twoDigits? a b, twoDigits? c d with
    | some hour, some minute =>
      isClock hour minute 0 &&
        (sign = '+' || (sign = '-' && !(hour = 0 && minute = 0)))
    | _, _ => false
  | _ => false

/-- Date, separator and time take nineteen characters. -/
def momentChars (cs : List Char) : Bool :=
  match cs.drop 10 with
  | separator :: rest =>
    let zone := rest.drop 8
    dateChars (cs.take 10) && timeChars (rest.take 8) &&
      ((separator = ' ' && zone.isEmpty) ||
        (separator = 'T' && (zone = ['Z'] || offsetChars zone)))
  | [] => false

def isDate (s : String) : Bool := dateChars s.toList

def isTime (s : String) : Bool := timeChars s.toList

def isMoment (s : String) : Bool := momentChars s.toList

end CompactSchema.Calendar

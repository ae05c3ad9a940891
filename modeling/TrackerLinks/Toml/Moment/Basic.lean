import TrackerLinks.Text.Digits

/-! Moments as TOML knows them: a date, a time of day, or both, then with the offset from universal
time if it is given. -/

namespace TrackerLinks.Toml

structure Date where
  year : Nat
  month : Nat
  day : Nat
  deriving DecidableEq

/-- A time of day, with the digits of the fraction of its second. -/
structure Time where
  hour : Nat
  minute : Nat
  second : Nat
  fraction : Text
  deriving DecidableEq

inductive Offset
  | universal
  | ahead (hours minutes : Nat)
  | behind (hours minutes : Nat)
  deriving DecidableEq

inductive Moment
  | date (date : Date)
  | time (time : Time)
  | dateTime (date : Date) (time : Time) (offset? : Option Offset)
  deriving DecidableEq

def isLeapYear (year : Nat) : Bool :=
  year % 4 = 0 && (year % 100 ≠ 0 || year % 400 = 0)

def daysInMonth (year month : Nat) : Nat :=
  match month with
  | 2 => if isLeapYear year then 29 else 28
  | 4 | 6 | 9 | 11 => 30
  | _ => 31

def padded (width n : Nat) : Text :=
  let digits := Text.decimal n
  List.replicate (width - digits.length) '0' ++ digits

def Date.text (date : Date) : Text :=
  padded 4 date.year ++ '-' :: padded 2 date.month ++ '-' :: padded 2 date.day

def Time.text (time : Time) : Text :=
  padded 2 time.hour ++ ':' :: padded 2 time.minute ++ ':' :: padded 2 time.second ++
    if time.fraction.isEmpty then [] else '.' :: time.fraction

/-- An offset of nothing counts as ahead. -/
def Offset.text : Offset → Text
  | universal => ['Z']
  | ahead hours minutes => '+' :: padded 2 hours ++ ':' :: padded 2 minutes
  | behind 0 0 => '+' :: padded 2 0 ++ ':' :: padded 2 0
  | behind hours minutes => '-' :: padded 2 hours ++ ':' :: padded 2 minutes

def Moment.text : Moment → Text
  | date d => d.text
  | time t => t.text
  | dateTime d t offset? => d.text ++ 'T' :: t.text ++ (offset?.map Offset.text).getD []

end TrackerLinks.Toml

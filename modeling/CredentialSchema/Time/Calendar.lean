/-!
The proleptic Gregorian calendar: dates and the number of days since the first of January
1970. Years are counted from the first of March, so that the leap day comes last.
-/
namespace CredentialSchema

structure Date where
  year : Int
  month : Nat
  day : Nat
deriving DecidableEq, Repr

namespace Date

def isLeap (year : Int) : Bool := year % 4 == 0 && (year % 100 != 0 || year % 400 == 0)

def daysIn (year : Int) (month : Nat) : Nat :=
  if month = 2 then if isLeap year then 29 else 28
  else if [4, 6, 9, 11].contains month then 30 else 31

def isValid (d : Date) : Bool :=
  1 ≤ d.month && d.month ≤ 12 && 1 ≤ d.day && d.day ≤ daysIn d.year d.month &&
    -262143 ≤ d.year && d.year ≤ 262142

/-- The days from the first of March to the first day of a month, counted from March as zero. -/
def daysBefore (shifted : Nat) : Nat := (153 * shifted + 2) / 5

/-- The number of a day, zero for the first of January 1970. -/
def toDay (d : Date) : Int :=
  let year := if d.month ≤ 2 then d.year - 1 else d.year
  let shifted := (d.month + 9) % 12
  365 * year + year / 4 - year / 100 + year / 400 + (daysBefore shifted + d.day - 1 : Nat) - 719468

def ofDay (n : Int) : Date :=
  let z := n + 719468
  let era := z / 146097
  let dayOfEra := (z % 146097).toNat
  let yearOfEra := (dayOfEra - dayOfEra / 1460 + dayOfEra / 36524 - dayOfEra / 146096) / 365
  let dayOfYear := dayOfEra - (365 * yearOfEra + yearOfEra / 4 - yearOfEra / 100)
  let shifted := (5 * dayOfYear + 2) / 153
  let month := if shifted < 10 then shifted + 3 else shifted - 9
  let year := 400 * era + yearOfEra
  ⟨if month ≤ 2 then year + 1 else year, month, dayOfYear - daysBefore shifted + 1⟩

end Date
end CredentialSchema

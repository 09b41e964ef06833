import CredentialSchema.Document.Reading
import CredentialSchema.Text.Blank
import CredentialSchema.Time.Calendar

/-!
Timestamps: instants read from RFC 3339 and written in UTC. Reading is relaxed: blanks may
stand around the parts, fields may have fewer digits, and the zone may be `Z`, `UTC` or an
offset. A fraction is written with no, three, six or nine digits, as few as hold it.
-/
namespace CredentialSchema

/-- An instant; within a leap second the nanoseconds go on beyond a billion. -/
structure Timestamp where
  /-- Seconds since the first of January 1970 in UTC. -/
  second : Int
  nanosecond : Nat
deriving DecidableEq, Repr

namespace Timestamp

def skip (cs : List Char) : List Char := cs.dropWhile Text.isBlank

def number? (width : Nat) (cs : List Char) : Option (Nat × List Char) :=
  let cs := skip cs
  let ds := (cs.take width).takeWhile Char.isDigit
  (Text.decimal? ds).map (·, cs.drop ds.length)

/-- A year: four digits, or any number of them after a sign. -/
def year? (cs : List Char) : Option (Int × List Char) :=
  match skip cs with
  | '-' :: cs => (signed? cs).map fun (n, r) => (-(n : Int), r)
  | '+' :: cs => (signed? cs).map fun (n, r) => (n, r)
  | cs => (number? 4 cs).map fun (n, r) => (n, r)
where
  signed? (cs : List Char) : Option (Nat × List Char) :=
    let ds := cs.takeWhile Char.isDigit
    (Text.decimal? ds).map (·, cs.drop ds.length)

def mark? (c : Char) (cs : List Char) : Option (List Char) :=
  match skip cs with
  | d :: cs => if d = c then some cs else none
  | [] => none

def date? (cs : List Char) : Option (Date × List Char) := do
  let (year, cs) ← year? cs
  let (month, cs) ← number? 2 (← mark? '-' cs)
  let (day, cs) ← number? 2 (← mark? '-' cs)
  let d : Date := ⟨year, month, day⟩
  if d.isValid then some (d, cs) else none

/-- A fraction of a second in nanoseconds, if one is written; digits after the ninth are
dropped. -/
def fraction? (cs : List Char) : Option (Nat × List Char) :=
  match cs with
  | '.' :: cs =>
    let ds := cs.takeWhile Char.isDigit
    let nine := ds.take 9
    (Text.decimal? nine).map fun n => (n * Nat.pow 10 (9 - nine.length), cs.drop ds.length)
  | _ => some (0, cs)

def time? (cs : List Char) : Option (Nat × Nat × List Char) := do
  let (hour, cs) ← number? 2 cs
  let (minute, cs) ← number? 2 (← mark? ':' cs)
  let (second, cs) ← number? 2 (← mark? ':' cs)
  let (nano, cs) ← fraction? cs
  if 23 < hour ∨ 59 < minute ∨ 60 < second then none
  else if second = 60 then some (3600 * hour + 60 * minute + 59, nano + 1000000000, cs)
  else some (3600 * hour + 60 * minute + second, nano, cs)

def twoDigits? (cs : List Char) : Option (Nat × List Char) :=
  match cs with
  | a :: b :: cs => (Text.decimal? [a, b]).map (·, cs)
  | _ => none

def offset? (cs : List Char) : Option (Int × List Char) :=
  if (cs.take 3).map Char.toUpper = ['U', 'T', 'C'] then some (0, cs.drop 3)
  else match cs with
  | 'Z' :: cs => some (0, cs)
  | 'z' :: cs => some (0, cs)
  | '+' :: cs => hours? 1 cs
  | '-' :: cs => hours? (-1) cs
  | '\u2212' :: cs => hours? (-1) cs
  | _ => none
where
  hours? (sign : Int) (cs : List Char) : Option (Int × List Char) := do
    let (hours, cs) ← twoDigits? cs
    let (minutes, cs) ← twoDigits? (cs.dropWhile fun c => c == ':' || Text.isBlank c)
    if hours ≤ 23 ∧ minutes ≤ 59 then
      some (sign * (3600 * hours + 60 * minutes : Nat), cs)
    else none

def parse? (s : String) : Option Timestamp := do
  let (date, cs) ← date? s.toList
  let cs ← match cs with
    | c :: cs => if c == 'T' || c == 't' || c == ' ' then some cs else none
    | [] => none
  let (second, nano, cs) ← time? cs
  let (offset, cs) ← offset? (skip cs)
  let instant := 86400 * date.toDay + second - offset
  let inRange := (Date.ofDay (instant / 86400)).isValid
  if (skip cs).isEmpty && inRange then some ⟨instant, nano⟩ else none

/-- The written form of a year: four digits, or a sign and more. -/
def yearText (year : Int) : List Char :=
  if 0 ≤ year ∧ year ≤ 9999 then Text.paddedDigits 4 year.toNat
  else
    (if year < 0 then '-' else '+') ::
      Text.paddedDigits (max 4 (Nat.toDigits 10 year.natAbs).length) year.natAbs

def fractionText (nano : Nat) : List Char :=
  if nano = 0 then []
  else if nano % 1000000 = 0 then '.' :: Text.paddedDigits 3 (nano / 1000000)
  else if nano % 1000 = 0 then '.' :: Text.paddedDigits 6 (nano / 1000)
  else '.' :: Text.paddedDigits 9 nano

def text (t : Timestamp) : String :=
  let d := Date.ofDay (t.second / 86400)
  let time := (t.second % 86400).toNat
  let leap := if 1000000000 ≤ t.nanosecond then 1 else 0
  .ofList (yearText d.year ++ '-' :: Text.paddedDigits 2 d.month ++ '-' ::
    Text.paddedDigits 2 d.day ++ 'T' :: Text.paddedDigits 2 (time / 3600) ++ ':' ::
    Text.paddedDigits 2 (time / 60 % 60) ++ ':' :: Text.paddedDigits 2 (time % 60 + leap) ++
    fractionText (t.nanosecond % 1000000000) ++ ['Z'])

def ofDocument? (d : Document) : Option Timestamp := d.string?.bind parse?

end Timestamp
end CredentialSchema

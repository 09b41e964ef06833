import CredentialSchema.Number.Binary64

/-!
Decimal text of binary64 numbers. The digits are the fewest that read back as the number,
and of those the nearest to it, a tie going to the even digit. Where the point stands and
when an exponent is written is a `Style`.
-/
namespace CredentialSchema

structure Decimal where
  digits : Nat
  exponent : Int
deriving DecidableEq, Repr

namespace Decimal

/-- How many decimal digits a number has; zero has one. -/
def digitCount (n : Nat) : Nat := (Nat.toDigits 10 n).length

/-- The least `p` such that a positive ratio is below 10^p. -/
def pointOf (num den : Nat) : Int :=
  if den ≤ num then digitCount (num / den) else 1 - digitCount ((den - 1) / num)

/-- The number nearest to digits · 10^exponent. Beyond four hundred places from the point the
answer is known without computing the power. -/
def toBinary64? (negative : Bool) (d : Decimal) : Option Binary64 :=
  let point := d.exponent + digitCount d.digits
  if d.digits = 0 ∨ point < -400 then some (.zero negative)
  else if 400 < point then none
  else Binary64.ofDecimal? negative d.digits d.exponent

/-- Four times the number, and four times the ends of the interval that rounds to it, in
units of its last binary place. Below a power of two the numbers are twice as dense. -/
def interval (x : Binary64) : Nat × Nat × Nat :=
  let m := x.significand
  let low := if m = Nat.pow 2 52 ∧ -1074 < x.exponent then 4 * m - 1 else 4 * m - 2
  (low, 4 * m, 4 * m + 2)

/-- The multiple of 10^k nearest to the number, if one reads back as the number. Only the two
neighbours of the number on that grid have to be tried. -/
def onGrid? (x : Binary64) (k : Int) : Option Decimal :=
  let (low, mid, high) := interval x
  let e := x.exponent - 2
  let unit := Nat.pow 2 e.toNat * Nat.pow 10 (-k).toNat
  let step := Nat.pow 2 (-e).toNat * Nat.pow 10 k.toNat
  let d := mid * unit / step
  let inside (n : Nat) : Bool :=
    if x.significand % 2 = 0 then low * unit ≤ n * step && n * step ≤ high * unit
    else low * unit < n * step && n * step < high * unit
  let below := mid * unit - d * step
  let above := (d + 1) * step - mid * unit
  let lower := below < above || (below == above && d % 2 == 0)
  if inside d && (lower || !inside (d + 1)) then some ⟨d, k⟩
  else if inside (d + 1) then some ⟨d + 1, k⟩
  else none

/-- The shortest decimal that reads back as a nonzero number; seventeen digits suffice. -/
def shortest (x : Binary64) : Decimal :=
  let e := x.exponent
  let point := pointOf (x.significand * Nat.pow 2 e.toNat) (Nat.pow 2 (-e).toNat)
  match (List.range 17).findSome? fun (n : Nat) => onGrid? x (point - (n + 1)) with
  | some ⟨d, k⟩ => if d % 10 = 0 then ⟨d / 10, k + 1⟩ else ⟨d, k⟩
  | none => ⟨0, 0⟩

/-- How a decimal is written: positionally while the point stands after more than `least` and
at most `most` digits, else with an exponent. -/
structure Style where
  least : Int
  most : Int
  /-- Whether a whole number keeps a point and a zero. -/
  wholePoint : Bool
  /-- Whether a positive exponent has a plus sign. -/
  exponentPlus : Bool
  /-- Whether negative zero keeps its sign. -/
  zeroSign : Bool
deriving DecidableEq, Repr

def write (style : Style) (d : Decimal) : String :=
  let digits := Nat.toDigits 10 d.digits
  let count := digits.length
  let point := d.exponent + count
  if style.least < point ∧ point ≤ style.most then
    if point ≤ 0 then .ofList (['0', '.'] ++ List.replicate (-point).toNat '0' ++ digits)
    else if point < count then
      .ofList (digits.take point.toNat ++ '.' :: digits.drop point.toNat)
    else
      .ofList (digits ++ List.replicate (point - count).toNat '0' ++
        (if style.wholePoint then ['.', '0'] else []))
  else
    let mantissa := if count ≤ 1 then digits else digits.take 1 ++ '.' :: digits.drop 1
    let power := point - 1
    let sign := if power < 0 then ['-'] else if style.exponentPlus then ['+'] else []
    .ofList (mantissa ++ 'e' :: sign ++ Nat.toDigits 10 power.natAbs)

end Decimal

def Binary64.write (style : Decimal.Style) (x : Binary64) : String :=
  if x.isZero then
    (if x.negative && style.zeroSign then "-" else "") ++ (if style.wholePoint then "0.0" else "0")
  else (if x.negative then "-" else "") ++ Decimal.write style (Decimal.shortest x)

end CredentialSchema

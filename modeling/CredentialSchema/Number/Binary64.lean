/-!
Finite binary64 numbers as exact values: a sign, a significand below 2^53 and a power of
two, in the one normal form that the format allows. A ratio is rounded to the nearest number
of the format, a tie going to the even significand; beyond the largest finite number there is
none.
-/
namespace CredentialSchema

/-- The normal form of binary64: a full 53-bit significand, unless the exponent is least. -/
def Binary64.Normal (significand : Nat) (exponent : Int) : Prop :=
  significand < Nat.pow 2 53 ∧ -1074 ≤ exponent ∧ exponent ≤ 971 ∧
    (Nat.pow 2 52 ≤ significand ∨ exponent = -1074)

instance (m : Nat) (e : Int) : Decidable (Binary64.Normal m e) :=
  inferInstanceAs (Decidable (_ ∧ _))

/-- A finite binary64 number, significand · 2^exponent with a sign. -/
structure Binary64 where
  negative : Bool
  significand : Nat
  exponent : Int
  normal : Binary64.Normal significand exponent
deriving DecidableEq

namespace Binary64

instance : Repr Binary64 := ⟨fun x _ => repr (x.negative, x.significand, x.exponent)⟩

def zero (negative : Bool) : Binary64 := ⟨negative, 0, -1074, by decide⟩

instance : Inhabited Binary64 := ⟨zero false⟩

def ofParts? (negative : Bool) (m : Nat) (e : Int) : Option Binary64 :=
  if h : Normal m e then some ⟨negative, m, e, h⟩ else none

/-- A quotient rounded to the nearest natural number, a tie to the even one. -/
def roundDiv (num den : Nat) : Nat :=
  let q := num / den
  let r := num % den
  if 2 * r < den then q
  else if den < 2 * r then q + 1
  else if q % 2 = 0 then q else q + 1

/-- The exponent at which a positive ratio has a 53-bit significand, or the least one. -/
def exponentOf (num den : Nat) : Int :=
  let guess : Int := num.log2 - den.log2 - 53
  let quotient := num * Nat.pow 2 (-guess).toNat / (den * Nat.pow 2 guess.toNat)
  max (if Nat.pow 2 53 ≤ quotient then guess + 1 else guess) (-1074)

/-- The number nearest to a ratio; none beyond the range of the format. -/
def ofRatio? (negative : Bool) (num den : Nat) : Option Binary64 :=
  if num = 0 then some (zero negative)
  else
    let e := exponentOf num den
    let m := roundDiv (num * Nat.pow 2 (-e).toNat) (den * Nat.pow 2 e.toNat)
    if m = Nat.pow 2 53 then ofParts? negative (Nat.pow 2 52) (e + 1)
    else ofParts? negative m e

def ofDecimal? (negative : Bool) (digits : Nat) (exponent : Int) : Option Binary64 :=
  ofRatio? negative (digits * Nat.pow 10 exponent.toNat) (Nat.pow 10 (-exponent).toNat)

/-- The number nearest to an integer of 64 bits, all of which are in range. -/
def ofInt (n : Int) : Binary64 := (ofRatio? (n < 0) n.natAbs 1).getD (zero false)

def isZero (x : Binary64) : Bool := x.significand == 0

def isPositive (x : Binary64) : Bool := !x.negative && x.significand != 0

def toInt? (x : Binary64) : Option Int :=
  let divisor := Nat.pow 2 (-x.exponent).toNat
  if x.significand % divisor = 0 then
    let n : Int := (x.significand / divisor * Nat.pow 2 x.exponent.toNat : Nat)
    some (if x.negative then -n else n)
  else none

end Binary64
end CredentialSchema

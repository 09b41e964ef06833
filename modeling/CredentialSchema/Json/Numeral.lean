import CredentialSchema.Json.Value
import CredentialSchema.Number.Decimal
import CredentialSchema.Text.Digits

/-!
Number literals. A literal without fraction and exponent that fits in 64 bits is an integer;
any other is the nearest binary64 number.
-/
namespace CredentialSchema.Json

structure Numeral where
  negative : Bool
  whole : List Nat
  /-- The digits after the point, at least one if there is a point. -/
  fraction : Option (List Nat)
  /-- The power of ten, if one is written. -/
  power : Option Int
deriving DecidableEq, Repr

namespace Numeral

def float? (n : Numeral) : Option Binary64 :=
  let fraction := n.fraction.getD []
  Decimal.toBinary64? n.negative
    ⟨Text.ofDigits 10 (n.whole ++ fraction), n.power.getD 0 - fraction.length⟩

/-- The integer a literal spells, if it is written as one and has 64 bits. Minus zero has
none. -/
def integer? (n : Numeral) : Option Int :=
  if n.fraction.isSome || n.power.isSome then none
  else
    let value : Int := Text.ofDigits 10 n.whole
    if n.negative then if 0 < value ∧ value ≤ Nat.pow 2 63 then some (-value) else none
    else if value < Nat.pow 2 64 then some value else none

def value? (n : Numeral) : Option Number :=
  match n.integer? with
  | some i => some (.integer i)
  | none => n.float?.map .float

end Numeral
end CredentialSchema.Json

import CredentialSchema.Number.Binary64

/-!
Numeric bounds. A bound is a binary64 number; a text format may also spell an infinity or
no number at all, which JSON cannot.
-/
namespace CredentialSchema

inductive Bound
  | finite (x : Binary64)
  | infinite (negative : Bool)
  | undefined
deriving DecidableEq, Repr

namespace Bound

def number? : Bound → Option Binary64
  | .finite x => some x
  | _ => none

def isFinite (b : Bound) : Bool := b.number?.isSome

end Bound
end CredentialSchema

import CredentialSchema.Json.Value
import CredentialSchema.Number.Bound

/-!
Documents: what a text format hands to a loader. Against a JSON value a document keeps
repeated members, may have members whose names are no strings, may hold plain scalars whose type
is decided by what is asked of them and floats that are no JSON numbers, and may hold parts that
have no value at all, which do harm only to a loader that asks for them.
-/
namespace CredentialSchema

inductive Document
  | null
  | bool (b : Bool)
  | number (n : Json.Number)
  /-- A float without bound, or one that is no number. -/
  | special (b : Bound)
  | text (s : String)
  /-- A scalar without quotes in a format where such a scalar has no fixed type. -/
  | plain (s : String)
  | sequence (items : List Document)
  | mapping (members : List (Document × Document))
  /-- A well-formed part without a value: a number out of range, half of a surrogate pair,
  nesting beyond the limit. -/
  | unreadable
deriving Repr, Inhabited

namespace Document

mutual
def ofValue : Json.Value → Document
  | .null => .null
  | .bool b => .bool b
  | .number n => .number n
  | .string s => .text s
  | .array vs => .sequence (ofItems vs)
  | .object ms => .mapping (ofMembers ms)

def ofItems : List Json.Value → List Document
  | [] => []
  | v :: vs => ofValue v :: ofItems vs

def ofMembers : List (String × Json.Value) → List (Document × Document)
  | [] => []
  | (k, v) :: ms => (.text k, ofValue v) :: ofMembers ms
end

/-- The name of a member, which is a string or a plain scalar as its own text. -/
def name? : Document → Option String
  | .text s => some s
  | .plain s => some s
  | _ => none

end Document
end CredentialSchema

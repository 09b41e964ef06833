import CredentialSchema.Json.Writer

/-!
The canonical form of a JSON value: the compact text with the members of every object
sorted, so that it does not depend on the order in which members were written. Members are
ordered by the code points of their written names, quotes and escapes included; for UTF-8
this is the order of the bytes. Floats are written as ECMAScript writes them.
-/
namespace CredentialSchema.Json

/-- Floats are positional above 1e-7 and below 1e21, a whole number has no point, and zero has
no sign. -/
def canonicalStyle : Decimal.Style where
  least := -6
  most := 21
  wholePoint := false
  exponentPlus := true
  zeroSign := false

def Number.canonical : Number → String
  | .integer n => toString n
  | .float x => x.write canonicalStyle

abbrev Entry := String × String

def Entry.le (a b : Entry) : Bool := a.1 ≤ b.1

def Entry.text (e : Entry) : String := e.1 ++ ":" ++ e.2

namespace Value

mutual
def canonical : Value → String
  | .null => "null"
  | .bool true => "true"
  | .bool false => "false"
  | .number n => n.canonical
  | .string s => quote s
  | .array vs => "[" ++ ",".intercalate (canonicalItems vs) ++ "]"
  | .object ms =>
    "\x7b" ++ ",".intercalate (((canonicalMembers ms).mergeSort Entry.le).map Entry.text) ++ "\x7d"

def canonicalItems : List Value → List String
  | [] => []
  | v :: vs => canonical v :: canonicalItems vs

/-- The written members of an object, in the order given. -/
def canonicalMembers : List (String × Value) → List Entry
  | [] => []
  | (k, v) :: ms => (quote k, canonical v) :: canonicalMembers ms
end

def canonicalBytes (v : Value) : List UInt8 := v.canonical.toUTF8.toList

end Value
end CredentialSchema.Json

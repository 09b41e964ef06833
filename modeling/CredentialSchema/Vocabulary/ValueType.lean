import CredentialSchema.Property.Kind
import CredentialSchema.Text.Blank

/-!
Value types: the catalogue's words for what a property holds, mapped to kinds and formats.
Letter case, surrounding blanks and the choice among hyphen, underscore and space do not
matter. An array is spelled `array-of-X`, `list-of-X`, `array<X>` or `X[]`, to any depth.
-/
namespace CredentialSchema

/-- What a value type maps to: a kind with the format it implies, or a list of such. -/
inductive Shape
  | scalar (kind : Kind) (format : Option String)
  | listOf (element : Shape)
deriving DecidableEq, Repr, Inhabited

namespace Shape

def kind : Shape → Kind
  | .scalar k _ => k
  | .listOf _ => .array

def format : Shape → Option String
  | .scalar _ f => f
  | .listOf _ => none

def innermost : Shape → Shape
  | .scalar k f => .scalar k f
  | .listOf s => s.innermost

def levels : Shape → Nat
  | .scalar _ _ => 0
  | .listOf s => s.levels + 1

def nest : Nat → Shape → Shape
  | 0, s => s
  | n + 1, s => .listOf (nest n s)

end Shape

namespace ValueType

def normalChar (c : Char) : Char := if c == '_' || c == ' ' then '-' else c.toLower

/-- The normal form: trimmed, lower-case, with hyphens between words. -/
def normalize (cs : List Char) : List Char := (Text.trimChars cs).map normalChar

def afterStart? (start : List Char) (cs : List Char) : Option (List Char) :=
  if start.isPrefixOf cs then some (cs.drop start.length) else none

def beforeEnd? (ending : List Char) (cs : List Char) : Option (List Char) :=
  if ending.isSuffixOf cs then some (cs.take (cs.length - ending.length)) else none

/-- The element type, if a normal value type spells an array. -/
def element? (cs : List Char) : Option (List Char) :=
  (afterStart? "array-of-".toList cs).or <|
  (afterStart? "list-of-".toList cs).or <|
  ((afterStart? "array<".toList cs).bind (beforeEnd? ['>'])).or <|
  beforeEnd? "[]".toList cs

def words : List (String × Kind × Option String) := [
  ("string", .string, none), ("text", .string, none), ("varchar", .string, none),
  ("integer", .integer, none), ("int", .integer, none), ("long", .integer, none),
  ("number", .number, none), ("decimal", .number, none), ("float", .number, none),
  ("double", .number, none),
  ("currency", .number, some "currency"), ("money", .number, some "currency"),
  ("percentage", .number, some "percentage"), ("percent", .number, some "percentage"),
  ("boolean", .boolean, none), ("bool", .boolean, none),
  ("date", .string, some "date"),
  ("datetime", .string, some "date-time"), ("date-time", .string, some "date-time"),
  ("timestamp", .string, some "date-time"),
  ("time", .string, some "time"),
  ("email", .string, some "email"),
  ("uri", .string, some "uri"), ("url", .string, some "uri"),
  ("uuid", .string, some "uuid"),
  ("object", .object, none)]

/-- The shape of a normal value type that spells no element type; an unknown word is text. -/
def word (cs : List Char) : Shape :=
  let s := String.ofList cs
  if s = "array" ∨ s = "list" then .listOf (.scalar .string none)
  else match words.lookup s with
    | some (kind, format) => .scalar kind format
    | none => .scalar .string none

/-- The shape of a value type, peeling at most `fuel` array levels. -/
def shapeOf : (fuel : Nat) → List Char → Shape
  | 0, cs => word (normalize cs)
  | fuel + 1, cs =>
    match element? (normalize cs) with
    | some inner => .listOf (shapeOf fuel inner)
    | none => word (normalize cs)

/-- The shape of a value type. Each array level takes up some of the text, so its length is
fuel enough. -/
def shape (valueType : String) : Shape := shapeOf valueType.length valueType.toList

end ValueType
end CredentialSchema

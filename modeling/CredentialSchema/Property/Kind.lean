/-!
The closed set of property kinds. An object holds named members, an array holds at most one
element definition, and the other kinds hold nothing.
-/
namespace CredentialSchema

inductive Kind
  | string
  | integer
  | number
  | boolean
  | object
  | array
deriving DecidableEq, Repr, Inhabited

namespace Kind

def isContainer : Kind → Bool
  | .object | .array => true
  | _ => false

def text : Kind → String
  | .string => "string"
  | .integer => "integer"
  | .number => "number"
  | .boolean => "boolean"
  | .object => "object"
  | .array => "array"

def ofText? (s : String) : Option Kind :=
  [string, integer, number, boolean, object, array].find? fun k => k.text == s

@[simp] theorem ofText?_text (k : Kind) : ofText? k.text = some k := by cases k <;> decide

end Kind
end CredentialSchema

import CredentialSchema.Json.Value
import CredentialSchema.Text.Digits

/-!
The keywords of Draft 2020-12 schemas, each with the form that its value must have. A form
says which parts of the value are schemas themselves; whether those are well formed is not
looked at here.
-/
namespace CredentialSchema.SchemaCheck

open Json (Value)

inductive Form
  | schema
  /-- A list of schemas, not empty. -/
  | schemas
  /-- An object of schemas. -/
  | namedSchemas
  /-- An object of schemas and lists of names. -/
  | dependencies
  | string
  | bool
  /-- An object of truth values. -/
  | namedBools
  | list
  | number
  /-- A number above zero. -/
  | positive
  /-- A whole number, not negative. -/
  | count
  /-- A list of different strings. -/
  | names
  /-- An object of lists of different strings. -/
  | namedNames
  /-- The word for a type or a list of different ones, not empty. -/
  | types
  /-- A string with no number sign before its end. -/
  | identifier
  /-- A plain name. -/
  | anchor
deriving DecidableEq, Repr

def forms : List (String × Form) := [
  ("$id", .identifier), ("$schema", .string), ("$ref", .string), ("$anchor", .anchor),
  ("$dynamicRef", .string), ("$dynamicAnchor", .anchor), ("$recursiveRef", .string),
  ("$recursiveAnchor", .anchor), ("$vocabulary", .namedBools), ("$comment", .string),
  ("$defs", .namedSchemas), ("definitions", .namedSchemas), ("dependencies", .dependencies),
  ("prefixItems", .schemas), ("items", .schema), ("contains", .schema),
  ("additionalProperties", .schema), ("properties", .namedSchemas),
  ("patternProperties", .namedSchemas), ("dependentSchemas", .namedSchemas),
  ("propertyNames", .schema), ("if", .schema), ("then", .schema), ("else", .schema),
  ("allOf", .schemas), ("anyOf", .schemas), ("oneOf", .schemas), ("not", .schema),
  ("unevaluatedItems", .schema), ("unevaluatedProperties", .schema), ("type", .types),
  ("enum", .list), ("multipleOf", .positive), ("maximum", .number),
  ("exclusiveMaximum", .number), ("minimum", .number), ("exclusiveMinimum", .number),
  ("maxLength", .count), ("minLength", .count), ("pattern", .string), ("maxItems", .count),
  ("minItems", .count), ("uniqueItems", .bool), ("maxContains", .count),
  ("minContains", .count), ("maxProperties", .count), ("minProperties", .count),
  ("required", .names), ("dependentRequired", .namedNames), ("title", .string),
  ("description", .string), ("deprecated", .bool), ("readOnly", .bool), ("writeOnly", .bool),
  ("examples", .list), ("format", .string), ("contentMediaType", .string),
  ("contentEncoding", .string), ("contentSchema", .schema)]

def form? (keyword : String) : Option Form := forms.lookup keyword

def typeWords : List String :=
  ["array", "boolean", "integer", "null", "number", "object", "string"]

/-- Whether a number is whole and not negative; a float may be whole. -/
def isCount : Json.Number → Bool
  | .integer n => 0 ≤ n
  | .float x => (x.toInt?.map fun n => decide (0 ≤ n)).getD false

def isPositive : Json.Number → Bool
  | .integer n => 0 < n
  | .float x => x.isPositive

def areNames : Value → Bool
  | .array vs => vs.all (fun v => v.asString?.isSome) && (vs.filterMap Value.asString?).Nodup
  | _ => false

def isTypeWord (v : Value) : Bool := (v.asString?.map typeWords.contains).getD false

def isAnchor (cs : List Char) : Bool :=
  match cs with
  | [] => false
  | c :: cs => (c.isAlpha || c == '_') &&
    cs.all fun c => c.isAlphanum || c == '_' || c == '-' || c == '.'

def isIdentifier (cs : List Char) : Bool := !cs.dropLast.contains '#'

/-- Whether a value has a form, the schemas in it left aside. -/
def Form.admits (f : Form) (v : Value) : Bool :=
  match f, v with
  | .schema, _ => true
  | .schemas, .array vs => !vs.isEmpty
  | .namedSchemas, .object _ => true
  | .dependencies, .object ms => ms.all fun (_, v) => match v with
    | .array _ => areNames v
    | _ => true
  | .string, .string _ => true
  | .bool, .bool _ => true
  | .namedBools, .object ms => ms.all fun (_, v) => match v with
    | .bool _ => true
    | _ => false
  | .list, .array _ => true
  | .number, .number _ => true
  | .positive, .number n => isPositive n
  | .count, .number n => isCount n
  | .names, v => areNames v
  | .namedNames, .object ms => ms.all fun (_, v) => areNames v
  | .types, .string s => typeWords.contains s
  | .types, .array vs => !vs.isEmpty && vs.all isTypeWord && areNames (.array vs)
  | .identifier, .string s => isIdentifier s.toList
  | .anchor, .string s => isAnchor s.toList
  | _, _ => false

def Form.parts (f : Form) (v : Value) : List Value :=
  match f, v with
  | .schema, v => [v]
  | .schemas, .array vs => vs
  | .namedSchemas, .object ms => ms.map (·.2)
  | .dependencies, .object ms => (ms.map (·.2)).filter fun v => match v with
    | .array _ => false
    | _ => true
  | _, _ => []

end CredentialSchema.SchemaCheck

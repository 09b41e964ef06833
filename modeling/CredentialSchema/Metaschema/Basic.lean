import CredentialSchema.Json.Value

/-!
Parts that schemas of schemas are built from.
-/
namespace CredentialSchema.Metaschema

open Json (Value)

def reference (r : String) : Value := .object [("$ref", .string r)]

def typed (word : String) : Value := .object [("type", .string word)]

def strings (ss : List String) : Value := .array (ss.map .string)

def counted : Value := .object [("type", .string "integer"), ("minimum", .number (.integer 0))]

def flag : Value := .object [("type", .string "boolean"), ("default", .bool false)]

def typeWord : Value := .object [
  ("enum", strings ["array", "boolean", "integer", "null", "number", "object", "string"])]

def typeWords (word : Value) : Value := .object [
  ("anyOf", .array [word, .object [
    ("type", .string "array"), ("items", word), ("minItems", .number (.integer 1)),
    ("uniqueItems", .bool true)]])]

def schemaList (schema : Value) : Value := .object [
  ("type", .string "array"), ("minItems", .number (.integer 1)), ("items", schema)]

def schemaMap (schema : Value) : Value := .object [
  ("type", .string "object"), ("additionalProperties", schema), ("default", .object [])]

def pattern : Value := .object [("type", .string "string"), ("format", .string "regex")]

def schemaTypes : Value := strings ["object", "boolean"]

end CredentialSchema.Metaschema

import CredentialSchema.Metaschema.Basic

/-!
The schemas of schemas of Draft 2019-09: one for each vocabulary, and one for all of them together.
-/
namespace CredentialSchema.Metaschema.Draft2019

open Json (Value)

def self : Value := .object [("$recursiveRef", .string "#")]

def document (name : String) (vocabularies : List (String × Bool)) (title : String)
    (members : List (String × Value)) : Value :=
  .object ([("$schema", .string "https://json-schema.org/draft/2019-09/schema"),
    ("$id", .string ("https://json-schema.org/draft/2019-09/" ++ name)),
    ("$vocabulary", .object (vocabularies.map fun (word, isRequired) =>
      ("https://json-schema.org/draft/2019-09/vocab/" ++ word, .bool isRequired))),
    ("$recursiveAnchor", .bool true),
    ("title", .string title), ("type", schemaTypes)] ++ members)

def whole : Value :=
  document "schema"
    [("core", true), ("applicator", true), ("validation", true), ("meta-data", true),
    ("format", false), ("content", true)]
    "Core and Validation specifications meta-schema" [
    ("allOf", .array [
      reference "meta/core", reference "meta/applicator", reference "meta/validation",
      reference "meta/meta-data", reference "meta/format", reference "meta/content"]),
    ("properties", .object [
      ("definitions", schemaMap self),
      ("dependencies", .object [
        ("type", .string "object"),
        ("additionalProperties", .object [
          ("anyOf", .array [self, reference "meta/validation#/$defs/stringArray"])])])])]

def core : Value :=
  document "meta/core" [("core", true)] "Core vocabulary meta-schema" [
    ("properties", .object [
      ("$id", .object [
        ("type", .string "string"), ("format", .string "uri-reference"),
        ("pattern", .string "^[^#]*#?$")]),
      ("$schema", .object [("type", .string "string"), ("format", .string "uri")]),
      ("$anchor", .object [
        ("type", .string "string"), ("pattern", .string "^[A-Za-z][-A-Za-z0-9.:_]*$")]),
      ("$ref", .object [("type", .string "string"), ("format", .string "uri-reference")]),
      ("$recursiveRef", .object [("type", .string "string"), ("format", .string "uri-reference")]),
      ("$recursiveAnchor", flag),
      ("$vocabulary", .object [
        ("type", .string "object"),
        ("propertyNames", .object [("type", .string "string"), ("format", .string "uri")]),
        ("additionalProperties", typed "boolean")]), ("$comment", typed "string"),
      ("$defs", schemaMap self)])]

def applicator : Value :=
  document "meta/applicator" [("applicator", true)] "Applicator vocabulary meta-schema" [
    ("properties", .object [
      ("additionalItems", self), ("unevaluatedItems", self),
      ("items", .object [("anyOf", .array [self, reference "#/$defs/schemaArray"])]),
      ("contains", self), ("additionalProperties", self), ("unevaluatedProperties", self),
      ("properties", schemaMap self),
      ("patternProperties", .object [
        ("type", .string "object"), ("additionalProperties", self),
        ("propertyNames", .object [("format", .string "regex")]), ("default", .object [])]),
      ("dependentSchemas", .object [("type", .string "object"), ("additionalProperties", self)]),
      ("propertyNames", self), ("if", self), ("then", self), ("else", self),
      ("allOf", reference "#/$defs/schemaArray"),
      ("anyOf", reference "#/$defs/schemaArray"),
      ("oneOf", reference "#/$defs/schemaArray"), ("not", self)]),
    ("$defs", .object [("schemaArray", schemaList self)])]

def validation : Value :=
  document "meta/validation" [("validation", true)] "Validation vocabulary meta-schema" [
    ("properties", .object [
      ("multipleOf", .object [
        ("type", .string "number"), ("exclusiveMinimum", .number (.integer 0))]),
      ("maximum", typed "number"), ("exclusiveMaximum", typed "number"),
      ("minimum", typed "number"), ("exclusiveMinimum", typed "number"),
      ("maxLength", reference "#/$defs/nonNegativeInteger"),
      ("minLength", reference "#/$defs/nonNegativeIntegerDefault0"), ("pattern", pattern),
      ("maxItems", reference "#/$defs/nonNegativeInteger"),
      ("minItems", reference "#/$defs/nonNegativeIntegerDefault0"), ("uniqueItems", flag),
      ("maxContains", reference "#/$defs/nonNegativeInteger"),
      ("minContains", .object [
        ("$ref", .string "#/$defs/nonNegativeInteger"), ("default", .number (.integer 1))]),
      ("maxProperties", reference "#/$defs/nonNegativeInteger"),
      ("minProperties", reference "#/$defs/nonNegativeIntegerDefault0"),
      ("required", reference "#/$defs/stringArray"),
      ("dependentRequired", .object [
        ("type", .string "object"),
        ("additionalProperties", reference "#/$defs/stringArray")]), ("const", .bool true),
      ("enum", .object [("type", .string "array"), ("items", .bool true)]),
      ("type", typeWords (reference "#/$defs/simpleTypes"))]),
    ("$defs", .object [
      ("nonNegativeInteger", counted),
      ("nonNegativeIntegerDefault0", .object [
        ("$ref", .string "#/$defs/nonNegativeInteger"), ("default", .number (.integer 0))]),
      ("simpleTypes", typeWord),
      ("stringArray", .object [
        ("type", .string "array"), ("items", typed "string"), ("uniqueItems", .bool true),
        ("default", .array [])])])]

def metadata : Value :=
  document "meta/meta-data" [("meta-data", true)] "Meta-data vocabulary meta-schema" [
    ("properties", .object [
      ("title", typed "string"), ("description", typed "string"), ("default", .bool true),
      ("deprecated", flag), ("readOnly", flag), ("writeOnly", flag),
      ("examples", .object [("type", .string "array"), ("items", .bool true)])])]

def format : Value :=
  document "meta/format" [("format", true)] "Format vocabulary meta-schema" [
    ("properties", .object [("format", typed "string")])]

def content : Value :=
  document "meta/content" [("content", true)] "Content vocabulary meta-schema" [
    ("properties", .object [
      ("contentMediaType", typed "string"), ("contentEncoding", typed "string"),
      ("contentSchema", self)])]

def documents : List Value :=
  [whole, core, applicator, validation, metadata, format, content]

end CredentialSchema.Metaschema.Draft2019

import CredentialSchema.Metaschema.Basic

/-!
The schemas of schemas of Draft 2020-12: one for each vocabulary, and one for all of them together.
-/
namespace CredentialSchema.Metaschema.Draft2020

open Json (Value)

def self : Value := .object [("$dynamicRef", .string "#meta")]

def document (name : String) (vocabularies : List (String × Bool)) (title : String)
    (members : List (String × Value)) : Value :=
  .object ([("$schema", .string "https://json-schema.org/draft/2020-12/schema"),
    ("$id", .string ("https://json-schema.org/draft/2020-12/" ++ name)),
    ("$vocabulary", .object (vocabularies.map fun (word, isRequired) =>
      ("https://json-schema.org/draft/2020-12/vocab/" ++ word, .bool isRequired))),
    ("$dynamicAnchor", .string "meta"),
    ("title", .string title), ("type", schemaTypes)] ++ members)

def whole : Value :=
  document "schema"
    [("core", true), ("applicator", true), ("unevaluated", true), ("validation", true),
    ("meta-data", true), ("format-annotation", true), ("content", true)]
    "Core and Validation specifications meta-schema" [
    ("allOf", .array [
      reference "meta/core", reference "meta/applicator", reference "meta/unevaluated",
      reference "meta/validation", reference "meta/meta-data",
      reference "meta/format-annotation", reference "meta/content"]),
    ("properties", .object [
      ("definitions", .object [
        ("type", .string "object"), ("additionalProperties", self),
        ("deprecated", .bool true), ("default", .object [])]),
      ("dependencies", .object [
        ("type", .string "object"),
        ("additionalProperties", .object [
          ("anyOf", .array [self, reference "meta/validation#/$defs/stringArray"])]),
        ("deprecated", .bool true), ("default", .object [])]),
      ("$recursiveAnchor", .object [
        ("$ref", .string "meta/core#/$defs/anchorString"), ("deprecated", .bool true)]),
      ("$recursiveRef", .object [
        ("$ref", .string "meta/core#/$defs/uriReferenceString"), ("deprecated", .bool true)])])]

def core : Value :=
  document "meta/core" [("core", true)] "Core vocabulary meta-schema" [
    ("properties", .object [
      ("$id", .object [
        ("$ref", .string "#/$defs/uriReferenceString"), ("pattern", .string "^[^#]*#?$")]),
      ("$schema", reference "#/$defs/uriString"),
      ("$ref", reference "#/$defs/uriReferenceString"),
      ("$anchor", reference "#/$defs/anchorString"),
      ("$dynamicRef", reference "#/$defs/uriReferenceString"),
      ("$dynamicAnchor", reference "#/$defs/anchorString"),
      ("$vocabulary", .object [
        ("type", .string "object"), ("propertyNames", reference "#/$defs/uriString"),
        ("additionalProperties", typed "boolean")]), ("$comment", typed "string"),
      ("$defs", .object [("type", .string "object"), ("additionalProperties", self)])]),
    ("$defs", .object [
      ("anchorString", .object [
        ("type", .string "string"), ("pattern", .string "^[A-Za-z_][-A-Za-z0-9._]*$")]),
      ("uriString", .object [("type", .string "string"), ("format", .string "uri")]),
      ("uriReferenceString", .object [
        ("type", .string "string"), ("format", .string "uri-reference")])])]

def applicator : Value :=
  document "meta/applicator" [("applicator", true)] "Applicator vocabulary meta-schema" [
    ("properties", .object [
      ("prefixItems", reference "#/$defs/schemaArray"), ("items", self),
      ("contains", self), ("additionalProperties", self), ("properties", schemaMap self),
      ("patternProperties", .object [
        ("type", .string "object"), ("additionalProperties", self),
        ("propertyNames", .object [("format", .string "regex")]), ("default", .object [])]),
      ("dependentSchemas", schemaMap self), ("propertyNames", self), ("if", self),
      ("then", self), ("else", self), ("allOf", reference "#/$defs/schemaArray"),
      ("anyOf", reference "#/$defs/schemaArray"),
      ("oneOf", reference "#/$defs/schemaArray"), ("not", self)]),
    ("$defs", .object [("schemaArray", schemaList self)])]

def unevaluated : Value :=
  document "meta/unevaluated" [("unevaluated", true)]
    "Unevaluated applicator vocabulary meta-schema" [
    ("properties", .object [("unevaluatedItems", self), ("unevaluatedProperties", self)])]

def validation : Value :=
  document "meta/validation" [("validation", true)] "Validation vocabulary meta-schema" [
    ("properties", .object [
      ("type", typeWords (reference "#/$defs/simpleTypes")), ("const", .bool true),
      ("enum", .object [("type", .string "array"), ("items", .bool true)]),
      ("multipleOf", .object [
        ("type", .string "number"), ("exclusiveMinimum", .number (.integer 0))]),
      ("maximum", typed "number"), ("exclusiveMaximum", typed "number"),
      ("minimum", typed "number"), ("exclusiveMinimum", typed "number"),
      ("maxLength", reference "#/$defs/nonNegativeInteger"),
      ("minLength", reference "#/$defs/nonNegativeIntegerDefault0"), ("pattern", pattern),
      ("maxItems", reference "#/$defs/nonNegativeInteger"),
      ("minItems", reference "#/$defs/nonNegativeIntegerDefault0"), ("uniqueItems", flag),
      ("maxContains", reference "#/$defs/nonNegativeInteger"),
      ("minContains", .object [
        ("$ref", .string "#/$defs/nonNegativeInteger"), ("default", .number (.integer 1))]),
      ("maxProperties", reference "#/$defs/nonNegativeInteger"),
      ("minProperties", reference "#/$defs/nonNegativeIntegerDefault0"),
      ("required", reference "#/$defs/stringArray"),
      ("dependentRequired", .object [
        ("type", .string "object"),
        ("additionalProperties", reference "#/$defs/stringArray")])]),
    ("$defs", .object [
      ("nonNegativeInteger", counted),
      ("nonNegativeIntegerDefault0", .object [
        ("$ref", .string "#/$defs/nonNegativeInteger"), ("default", .number (.integer 0))]),
      ("simpleTypes", typeWord),
      ("stringArray", .object [
        ("type", .string "array"), ("items", typed "string"), ("uniqueItems", .bool true),
        ("default", .array [])])])]

def metadata : Value :=
  document "meta/meta-data" [("meta-data", true)] "Meta-data vocabulary meta-schema" [
    ("properties", .object [
      ("title", typed "string"), ("description", typed "string"), ("default", .bool true),
      ("deprecated", flag), ("readOnly", flag), ("writeOnly", flag),
      ("examples", .object [("type", .string "array"), ("items", .bool true)])])]

def formatAnnotation : Value :=
  document "meta/format-annotation" [("format-annotation", true)]
    "Format vocabulary meta-schema for annotation results" [
    ("properties", .object [("format", typed "string")])]

def formatAssertion : Value :=
  document "meta/format-assertion" [("format-assertion", true)]
    "Format vocabulary meta-schema for assertion results" [
    ("properties", .object [("format", typed "string")])]

def content : Value :=
  document "meta/content" [("content", true)] "Content vocabulary meta-schema" [
    ("properties", .object [
      ("contentEncoding", typed "string"), ("contentMediaType", typed "string"),
      ("contentSchema", self)])]

def documents : List Value :=
  [whole, core, applicator, unevaluated, validation, metadata, formatAnnotation, formatAssertion,
    content]

end CredentialSchema.Metaschema.Draft2020

import CredentialSchema.Metaschema.Basic

/-!
The schemas of schemas of the drafts 4, 6 and 7, one document each.
-/
namespace CredentialSchema.Metaschema.Early

open Json (Value)

def self : Value := reference "#"

def selfOrBool : Value := .object [
  ("anyOf", .array [typed "boolean", self]), ("default", .object [])]

def dependencies : Value := .object [
  ("type", .string "object"), ("additionalProperties", .object [
    ("anyOf", .array [self, reference "#/definitions/stringArray"])])]

def draft4 : Value := .object [
    ("id", .string "http://json-schema.org/draft-04/schema#"),
    ("$schema", .string "http://json-schema.org/draft-04/schema#"),
    ("description", .string "Core schema meta-schema"),
    ("definitions", .object [
      ("schemaArray", schemaList self), ("positiveInteger", counted),
      ("positiveIntegerDefault0", .object [
        ("allOf", .array [
          reference "#/definitions/positiveInteger",
          .object [("default", .number (.integer 0))]])]), ("simpleTypes", typeWord),
      ("stringArray", .object [
        ("type", .string "array"), ("items", typed "string"),
        ("minItems", .number (.integer 1)), ("uniqueItems", .bool true)])]),
    ("type", .string "object"),
    ("properties", .object [
      ("id", .object [("format", .string "uri"), ("type", .string "string")]),
      ("$schema", .object [("type", .string "string"), ("format", .string "uri")]),
      ("title", typed "string"), ("description", typed "string"), ("default", .object []),
      ("multipleOf", .object [
        ("type", .string "number"), ("minimum", .number (.integer 0)),
        ("exclusiveMinimum", .bool true)]), ("maximum", typed "number"),
      ("exclusiveMaximum", typed "boolean"), ("minimum", typed "number"),
      ("exclusiveMinimum", typed "boolean"),
      ("maxLength", reference "#/definitions/positiveInteger"),
      ("minLength", reference "#/definitions/positiveIntegerDefault0"),
      ("pattern", pattern), ("additionalItems", selfOrBool),
      ("items", .object [
        ("anyOf", .array [self, reference "#/definitions/schemaArray"]),
        ("default", .object [])]), ("maxItems", reference "#/definitions/positiveInteger"),
      ("minItems", reference "#/definitions/positiveIntegerDefault0"),
      ("uniqueItems", flag), ("maxProperties", reference "#/definitions/positiveInteger"),
      ("minProperties", reference "#/definitions/positiveIntegerDefault0"),
      ("required", reference "#/definitions/stringArray"),
      ("additionalProperties", selfOrBool), ("definitions", schemaMap self),
      ("properties", schemaMap self), ("patternProperties", schemaMap self),
      ("dependencies", dependencies), ("enum", typed "array"),
      ("type", typeWords (reference "#/definitions/simpleTypes")),
      ("format", typed "string"), ("allOf", reference "#/definitions/schemaArray"),
      ("anyOf", reference "#/definitions/schemaArray"),
      ("oneOf", reference "#/definitions/schemaArray"), ("not", self)]),
    ("dependencies", .object [
      ("exclusiveMaximum", strings ["maximum"]), ("exclusiveMinimum", strings ["minimum"])]),
    ("default", .object [])]

def draft6 : Value := .object [
    ("$schema", .string "http://json-schema.org/draft-06/schema#"),
    ("$id", .string "http://json-schema.org/draft-06/schema#"),
    ("title", .string "Core schema meta-schema"),
    ("definitions", .object [
      ("schemaArray", schemaList self), ("nonNegativeInteger", counted),
      ("nonNegativeIntegerDefault0", .object [
        ("allOf", .array [
          reference "#/definitions/nonNegativeInteger",
          .object [("default", .number (.integer 0))]])]), ("simpleTypes", typeWord),
      ("stringArray", .object [
        ("type", .string "array"), ("items", typed "string"), ("uniqueItems", .bool true),
        ("default", .array [])])]), ("type", schemaTypes),
    ("properties", .object [
      ("$id", .object [("type", .string "string"), ("format", .string "uri-reference")]),
      ("$schema", .object [("type", .string "string"), ("format", .string "uri")]),
      ("$ref", .object [("type", .string "string"), ("format", .string "uri-reference")]),
      ("title", typed "string"), ("description", typed "string"), ("default", .object []),
      ("examples", .object [("type", .string "array"), ("items", .object [])]),
      ("multipleOf", .object [
        ("type", .string "number"), ("exclusiveMinimum", .number (.integer 0))]),
      ("maximum", typed "number"), ("exclusiveMaximum", typed "number"),
      ("minimum", typed "number"), ("exclusiveMinimum", typed "number"),
      ("maxLength", reference "#/definitions/nonNegativeInteger"),
      ("minLength", reference "#/definitions/nonNegativeIntegerDefault0"),
      ("pattern", pattern), ("additionalItems", self),
      ("items", .object [
        ("anyOf", .array [self, reference "#/definitions/schemaArray"]),
        ("default", .object [])]),
      ("maxItems", reference "#/definitions/nonNegativeInteger"),
      ("minItems", reference "#/definitions/nonNegativeIntegerDefault0"),
      ("uniqueItems", flag), ("contains", self),
      ("maxProperties", reference "#/definitions/nonNegativeInteger"),
      ("minProperties", reference "#/definitions/nonNegativeIntegerDefault0"),
      ("required", reference "#/definitions/stringArray"), ("additionalProperties", self),
      ("definitions", schemaMap self), ("properties", schemaMap self),
      ("patternProperties", schemaMap self), ("dependencies", dependencies),
      ("propertyNames", self), ("const", .object []), ("enum", typed "array"),
      ("type", typeWords (reference "#/definitions/simpleTypes")),
      ("format", typed "string"), ("allOf", reference "#/definitions/schemaArray"),
      ("anyOf", reference "#/definitions/schemaArray"),
      ("oneOf", reference "#/definitions/schemaArray"), ("not", self)]),
    ("default", .object [])]

def draft7 : Value := .object [
    ("$schema", .string "http://json-schema.org/draft-07/schema#"),
    ("$id", .string "http://json-schema.org/draft-07/schema#"),
    ("title", .string "Core schema meta-schema"),
    ("definitions", .object [
      ("schemaArray", schemaList self), ("nonNegativeInteger", counted),
      ("nonNegativeIntegerDefault0", .object [
        ("allOf", .array [
          reference "#/definitions/nonNegativeInteger",
          .object [("default", .number (.integer 0))]])]), ("simpleTypes", typeWord),
      ("stringArray", .object [
        ("type", .string "array"), ("items", typed "string"), ("uniqueItems", .bool true),
        ("default", .array [])])]), ("type", schemaTypes),
    ("properties", .object [
      ("$id", .object [("type", .string "string"), ("format", .string "uri-reference")]),
      ("$schema", .object [("type", .string "string"), ("format", .string "uri")]),
      ("$ref", .object [("type", .string "string"), ("format", .string "uri-reference")]),
      ("$comment", typed "string"), ("title", typed "string"),
      ("description", typed "string"), ("default", .bool true), ("readOnly", flag),
      ("writeOnly", flag),
      ("examples", .object [("type", .string "array"), ("items", .bool true)]),
      ("multipleOf", .object [
        ("type", .string "number"), ("exclusiveMinimum", .number (.integer 0))]),
      ("maximum", typed "number"), ("exclusiveMaximum", typed "number"),
      ("minimum", typed "number"), ("exclusiveMinimum", typed "number"),
      ("maxLength", reference "#/definitions/nonNegativeInteger"),
      ("minLength", reference "#/definitions/nonNegativeIntegerDefault0"),
      ("pattern", pattern), ("additionalItems", self),
      ("items", .object [
        ("anyOf", .array [self, reference "#/definitions/schemaArray"]),
        ("default", .bool true)]),
      ("maxItems", reference "#/definitions/nonNegativeInteger"),
      ("minItems", reference "#/definitions/nonNegativeIntegerDefault0"),
      ("uniqueItems", flag), ("contains", self),
      ("maxProperties", reference "#/definitions/nonNegativeInteger"),
      ("minProperties", reference "#/definitions/nonNegativeIntegerDefault0"),
      ("required", reference "#/definitions/stringArray"), ("additionalProperties", self),
      ("definitions", schemaMap self), ("properties", schemaMap self),
      ("patternProperties", .object [
        ("type", .string "object"), ("additionalProperties", self),
        ("propertyNames", .object [("format", .string "regex")]), ("default", .object [])]),
      ("dependencies", dependencies), ("propertyNames", self), ("const", .bool true),
      ("enum", .object [("type", .string "array"), ("items", .bool true)]),
      ("type", typeWords (reference "#/definitions/simpleTypes")),
      ("format", typed "string"), ("contentMediaType", typed "string"),
      ("contentEncoding", typed "string"), ("if", self), ("then", self), ("else", self),
      ("allOf", reference "#/definitions/schemaArray"),
      ("anyOf", reference "#/definitions/schemaArray"),
      ("oneOf", reference "#/definitions/schemaArray"), ("not", self)]),
    ("default", .bool true)]

end CredentialSchema.Metaschema.Early

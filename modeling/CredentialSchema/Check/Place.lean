import CredentialSchema.Check.Dialect
import CredentialSchema.Check.Keyword
import CredentialSchema.Metaschema.Draft2019
import CredentialSchema.Metaschema.Draft2020
import CredentialSchema.Metaschema.Early
import CredentialSchema.Url.Reference

/-!
Places in documents. A schema with an identifier is a resource of its own, which references name,
and references inside it start from there. The schemas of schemas are documents that every check
knows.
-/
namespace CredentialSchema.SchemaCheck

open Json (Value)

/-- A schema in its place. The name is that of the resource that it belongs to, and is missing if
an identifier names nothing. -/
structure Place where
  name : Option Url.Reference
  schema : Value
  /-- The draft of the document. -/
  draft : Draft := .draft2020
deriving DecidableEq, Repr

/-- What an identifier names in a resource; number signs at its end are not part of it. -/
def identified? (name : Option Url.Reference) (id : List Char) : Option Url.Reference := do
  let r ← Url.Reference.parse? (.ofList (id.reverse.dropWhile (· == '#')).reverse)
  (← name).resolve? r

def identifier? (schema : Value) : Option String :=
  ((schema.get? "$id").bind Value.asString?).filter fun s => s.toList.head? != some '#'

def Place.enter (p : Place) (schema : Value) : Place :=
  match identifier? schema with
  | some s => { p with name := identified? p.name s.toList, schema }
  | none => { p with schema }

def unnamed : Url.Reference := ⟨some "json-schema", some "", "/", none, none⟩

def Place.ofDocument (document : Value) : Place :=
  Place.enter ⟨some unnamed, .null, .draft2020⟩ document

/-- The schemas directly inside a schema, under the keywords that `follow` admits. -/
def parts (follow : String → Bool) (v : Value) : List Value :=
  (v.asObject?.getD []).flatMap fun (k, w) =>
    if follow k then ((form? k).map fun f => f.parts w).getD [] else []

def within (follow : String → Bool) : (depth : Nat) → Place → List Place
  | 0, _ => []
  | depth + 1, p =>
    p :: (parts follow p.schema).flatMap fun v => within follow depth (p.enter v)

def all (p : Place) : List Place := within (fun _ => true) (p.schema.depth + 1) p

def isListed (keyword : String) : Bool := keyword != "dependencies"

def listed (p : Place) : List Place := within isListed (p.schema.depth + 1) p

/-- The resources in a document: the document itself and every schema with an identifier. -/
def ownResources (document : Value) : List Place :=
  match listed (.ofDocument document) with
  | root :: inner => root :: inner.filter fun p => (identifier? p.schema).isSome
  | [] => []

def Place.ofMetaschema (draft : Draft) (schema : Value) : Place :=
  let id := ((schema.get? "$id").orElse fun _ => schema.get? "id").bind Value.asString?
  ⟨identified? (some unnamed) (id.getD "").toList, schema, draft⟩

def metaschemas : List Place :=
  [.ofMetaschema .draft4 Metaschema.Early.draft4, .ofMetaschema .draft6 Metaschema.Early.draft6,
    .ofMetaschema .draft7 Metaschema.Early.draft7] ++
  Metaschema.Draft2019.documents.map (.ofMetaschema .draft2019) ++
  Metaschema.Draft2020.documents.map (.ofMetaschema .draft2020)

/-- The resource of a name, in a document or among the schemas of schemas. -/
def resource? (document : Value) (name : Url.Reference) : Option Place :=
  (ownResources document).find? (·.name = some name) <|> metaschemas.find? (·.name = some name)

def target? (name : Option Url.Reference) (reference : String) : Option Url.Reference := do
  (← name).resolve? (← Url.Reference.parse? reference)

def schemaKeywords : List String := [
  "additionalProperties", "contains", "contentSchema", "else", "if", "items", "not",
  "propertyNames", "then", "unevaluatedItems", "unevaluatedProperties"]

def schemaHolders : List String := [
  "allOf", "anyOf", "oneOf", "prefixItems", "$defs", "definitions", "dependentSchemas",
  "patternProperties", "properties"]

/-- Whether steps from a schema, by name or by number, lead to a schema in it. -/
def leadsToSchema : List (Option String) → Bool
  | [] => true
  | none :: rest => leadsToSchema rest
  | [some k] => schemaKeywords.contains k
  | some k :: step :: rest =>
    if schemaKeywords.contains k then leadsToSchema (step :: rest)
    else schemaHolders.contains k && leadsToSchema rest

def unescapeSegment : List Char → List Char
  | '~' :: '0' :: cs => '~' :: unescapeSegment cs
  | '~' :: '1' :: cs => '/' :: unescapeSegment cs
  | c :: cs => c :: unescapeSegment cs
  | [] => []

/-- A place in a list; a plus sign before it does not matter. -/
def index? : List Char → Option Nat
  | '+' :: cs => Text.decimal? cs
  | cs => Text.decimal? cs

/-- The value one step inside another, and the name of the step if it is one by name. -/
def step? (segment : String) : Value → Option (Option String × Value)
  | .object ms =>
    let name := .ofList (unescapeSegment segment.toList)
    (ms.lookup name).map (some name, ·)
  | .array vs => (index? segment.toList).bind fun n => vs[n]?.map (none, ·)
  | _ => none

/-- Follows a pointer, by its segments. On its way it enters schemas, of which it knows by the steps
since the last resource, and it meets no unknown dialect. -/
def follow? : List String → (steps : List (Option String)) → Place → Option Place
  | [], _, p => some p
  | s :: rest, steps, p => do
    let (name, v) ← step? s p.schema
    let _ ← p.draft.detect? v
    let steps := steps ++ [name]
    let q := if leadsToSchema steps then p.enter v else { p with schema := v }
    follow? rest (if q.name = p.name then steps else []) q

/-- The segments of a pointer in a fragment, after its first slash, with percent escapes undone. -/
def segments? (cs : List Char) : Option (List String) :=
  (String.fromUTF8? ⟨(Percent.decodeBytes cs).toArray⟩).map fun s =>
    (s.toList.splitOn '/').map String.ofList

def anchored? (resource : Place) (anchor : String) : Option Place :=
  (listed resource).find? fun p =>
    p.name = resource.name && ["$anchor", "$dynamicAnchor"].any fun k =>
      p.schema.get? k = some (.string anchor)

def lookup? (document : Value) (target : Url.Reference) : Option Place := do
  let resource ← resource? document { target with fragment := none }
  match (target.fragment.getD "").toList with
  | [] => return resource
  | '/' :: pointer => follow? (← segments? pointer) [] resource
  | anchor => anchored? resource (.ofList anchor)

/-- The vocabularies that a schema uses: those that its dialect requires, or those of a draft if
it names no dialect that is known. -/
def vocabularies (document : Value) (d : Draft) (v : Value) : List Vocabulary :=
  match dialectName? v with
  | none => d.vocabularies
  | some s =>
    match Draft.ofName? s with
    | some d => d.vocabularies
    | none =>
      let required := do
        let dialect ← resource? document (← identified? (some unnamed) s.toList)
        let words ← (← dialect.schema.get? "$vocabulary").asObject?
        return words.filterMap fun (k, w) =>
          if w = Value.bool true then Draft.vocabulary? k else none
      required.getD d.vocabularies

end CredentialSchema.SchemaCheck

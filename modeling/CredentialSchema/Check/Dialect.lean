import CredentialSchema.Json.Value

/-!
Dialects of schemas. A draft says which keywords there are, and its later ones are divided into
vocabularies, of which a schema may use some and leave others.
-/
namespace CredentialSchema.SchemaCheck

open Json (Value)

inductive Vocabulary
  | core
  | applicator
  | unevaluated
  | validation
  | metadata
  | format
  | content
deriving DecidableEq, Repr

def Vocabulary.ofName? (s : String) : Option Vocabulary :=
  match s with
  | "core" => some .core
  | "applicator" => some .applicator
  | "unevaluated" => some .unevaluated
  | "validation" => some .validation
  | "meta-data" => some .metadata
  | "format" | "format-annotation" | "format-assertion" => some .format
  | "content" => some .content
  | _ => none

inductive Draft
  | draft4
  | draft6
  | draft7
  | draft2019
  | draft2020
deriving DecidableEq, Repr

namespace Draft

def base : Draft → String
  | draft4 => "http://json-schema.org/draft-04/"
  | draft6 => "http://json-schema.org/draft-06/"
  | draft7 => "http://json-schema.org/draft-07/"
  | draft2019 => "https://json-schema.org/draft/2019-09/"
  | draft2020 => "https://json-schema.org/draft/2020-12/"

def all : List Draft := [draft4, draft6, draft7, draft2019, draft2020]

/-- The draft of a name; number signs at the end of the name do not matter. -/
def ofName? (s : String) : Option Draft :=
  let name := (s.toList.reverse.dropWhile (· == '#')).reverse
  all.find? fun d => name = d.base.toList ++ "schema".toList

/-- Whether the keywords of a draft are divided into vocabularies. Before that a reference also
hides all keywords beside it. -/
def isDivided (d : Draft) : Bool := d = draft2019 || d = draft2020

def vocabularies : Draft → List Vocabulary
  | draft2020 => [.core, .applicator, .unevaluated, .validation, .metadata, .format, .content]
  | draft2019 => [.core, .applicator, .validation, .metadata, .format, .content]
  | _ => []

def vocabulary? (address : String) : Option Vocabulary :=
  [draft2019, draft2020].findSome? fun d =>
    let start := d.base.toList ++ "vocab/".toList
    if start.isPrefixOf address.toList then
      Vocabulary.ofName? (.ofList (address.toList.drop start.length))
    else none

end Draft

def dialectName? (v : Value) : Option String := (v.get? "$schema").bind Value.asString?

/-- The draft of a schema inside one of a known draft. An unknown dialect has none. -/
def Draft.detect? (d : Draft) (v : Value) : Option Draft :=
  match dialectName? v with
  | none => some d
  | some s => ofName? s

end CredentialSchema.SchemaCheck

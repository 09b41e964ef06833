import CredentialSchema.Check.Usage

/-!
The check of schemas. A schema is publishable if every keyword in it has a value of its form, every
reference in it stays inside the document, and validation can use it: its keywords, the patterns
among them, and what its references lead to. Only places that validation reaches are used: a
definition that nothing refers to may hold a broken pattern.
-/
namespace CredentialSchema.SchemaCheck

open Json (Value)

variable (isPattern : String → Bool)

/-- Whether a value is a schema whose own keywords have values of their forms. -/
def isWellFormed : Value → Bool
  | .bool _ => true
  | .object ms => ms.all fun (k, v) => ((form? k).map fun f => f.admits v).getD true
  | _ => false

def isStandard (reference : String) : Bool :=
  Draft.all.any fun d => d.base.toList.isPrefixOf reference.toList

/-- What a schema names besides itself: what it refers to and its dialect. A standard reference
leaves the dialect unread. -/
def namedIn (schema : Value) : List String :=
  let names := ["$ref", "$schema"].filterMap fun k => (schema.get? k).bind Value.asString?
  if ((schema.get? "$ref").bind Value.asString?).any isStandard then []
  else names.filter fun s => !isStandard s

def pointed? : List String → Value → Option Value
  | [], v => some v
  | s :: rest, v => (step? s v).bind fun (_, w) => pointed? rest w

/-- The place in a document that a name with nothing but a pointer leads to. -/
def inside? (document : Value) (p : Place) (name : String) : Option Place := do
  let resource ← resource? document (← p.name)
  match name.toList with
  | '#' :: '/' :: cs =>
    let v ← pointed? ((cs.splitOn '/').map String.ofList) resource.schema
    return { p with schema := v }
  | _ => none

/-- Whether everything that a schema at some place names is in the document. A resource whose name
has no address is not asked. -/
def staysInside (document : Value) (p : Place) : Bool :=
  match p.name with
  | none => false
  | some name => name.scheme = some "urn" || (namedIn p.schema).all fun s =>
    s.toList.head? = some '#' || ((target? p.name s).bind fun target =>
      resource? document { target with fragment := none }).isSome

/-- Everything that is reached from some starts: each calls for others by keys, and a key is
followed once. Each round follows at least one new key, so the number of keys is fuel enough. -/
def reached? [BEq κ] (calls : α → List κ) (follow : κ → Option (List α)) :
    (fuel : Nat) → (starts : List α) → (followed : List κ) → Option (List α)
  | 0, _, _ => none
  | fuel + 1, starts, followed =>
    match ((starts.flatMap calls).filter fun k => !followed.contains k).eraseDups with
    | [] => some starts
    | new => do
      let found ← new.mapM follow
      let rest ← reached? calls follow fuel found.flatten (followed ++ new)
      return starts ++ rest

/-- The places that references name, and those that their pointers lead to. -/
def named? (document : Value) : Option (List Place) :=
  let calls (p : Place) : List (Option Url.Reference × String) :=
    ((namedIn p.schema).filter fun s => s.toList.head? = some '#').map (p.name, ·)
  let follow (key : Option Url.Reference × String) : Option (List Place) :=
    some (((inside? document ⟨key.1, .null, .draft2020⟩ key.2).map listed).getD [])
  reached? calls follow (document.size * document.size + 1) (listed (.ofDocument document)) []

def used? (document : Value) (u : Usage) : Option (List Usage) := do
  let calls (u : Usage) : List (Option Url.Reference) :=
    u.references.map (target? u.place.name)
  let follow (key : Option Url.Reference) : Option (List Usage) := do
    (Usage.ofTarget document (← lookup? document (← key))).all? isPattern
  let fuel := document.size * document.size + 1 +
    (metaschemas.map fun p => p.schema.size).foldr (· + ·) 0
  reached? calls follow fuel (← u.all? isPattern) []

def Usage.ofDocument (document : Value) : Usage :=
  ⟨.ofDocument document, .draft2020, SchemaCheck.vocabularies document .draft2020 document⟩

def isValid (document : Value) : Bool :=
  (all (.ofDocument document)).all (fun p => isWellFormed p.schema) &&
    ((named? document).any fun places => places.all (staysInside document)) &&
    (used? isPattern document (.ofDocument document)).isSome

end CredentialSchema.SchemaCheck

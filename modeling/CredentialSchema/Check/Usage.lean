import CredentialSchema.Check.Place

/-!
Which keywords of a schema validation uses, and how. A keyword that is used has to have a value that
validation can work with, which may be less than the schema of schemas asks for, and the schemas in
its value are used in turn. Which texts are patterns is for the engine that matches them to say.
-/
namespace CredentialSchema.SchemaCheck

open Json (Value)

variable (isPattern : String → Bool)

/-- A place that validation uses, with the draft and the vocabularies that its keywords are read
in. -/
structure Usage where
  place : Place
  draft : Draft
  vocabularies : List Vocabulary

namespace Usage

def has (u : Usage) (v : Vocabulary) : Bool := !u.draft.isDivided || u.vocabularies.contains v

/-- The use of a schema in the value of a keyword. A schema of another dialect is read in its draft,
or in the last one if that is unknown. -/
def enter (u : Usage) (schema : Value) : Usage :=
  { u with place := u.place.enter schema, draft := (u.draft.detect? schema).getD .draft2020 }

def guarded (isRight : Bool) : Option (List Value) := if isRight then some [] else none

/-- Whether a number is whole; a float may be. -/
def isWhole : Json.Number → Bool
  | .integer _ => true
  | .float x => x.toInt?.isSome

def isPlainCount : Json.Number → Bool
  | .integer n => 0 ≤ n
  | .float _ => false

/-- Whether a value is a limit for a count. The oldest draft takes those only that are written as
counts. -/
def isCountLimit (d : Draft) : Value → Bool
  | .number n => if d = .draft4 then isPlainCount n else isWhole n
  | _ => false

def isMatchLimit : Option Value → Bool
  | none => true
  | some (.number n) => isPlainCount n || (isWhole n && !isInteger n)
  | some _ => false
where
  /-- Whether a number is written as a whole one. -/
  isInteger : Json.Number → Bool
    | .integer _ => true
    | .float _ => false

def isNumber : Value → Bool
  | .number _ => true
  | _ => false

def isBool : Value → Bool
  | .bool _ => true
  | _ => false

def items? : Value → Option (List Value)
  | .array vs => some vs
  | _ => none

def members? (v : Value) : Option (List Value) := v.asObject?.map fun ms => ms.map (·.2)

def areStrings : Value → Bool
  | .array vs => vs.all fun v => v.asString?.isSome
  | _ => false

/-- The schemas among dependencies, the others of which are lists of names. -/
def dependencies? (v : Value) : Option (List Value) := do
  let values ← members? v
  let lists := values.filter fun v => (items? v).isSome
  if lists.all areStrings then some (values.filter fun v => (items? v).isNone) else none

/-- The schemas of a keyword for items. In the last draft there is one for those after the first
ones; before, there was one for each of the first ones or one for all. -/
def itemSchemas? (d : Draft) (v : Value) : Option (List Value) :=
  match v with
  | .array vs => some (if d = .draft2020 then [] else vs)
  | .object _ => some [v]
  | _ => some []

def additionalItems? (items : Option Value) (v : Value) : Option (List Value) :=
  match items, v with
  | some (.array _), .bool _ => some []
  | some (.array _), v => some [v]
  | _, _ => some []

/-- The schema that another one depends on, if what follows from it is written. -/
def conditions (schema : Value) (v : Value) : List Value :=
  let consequences := ["then", "else"].filterMap schema.get?
  if consequences.isEmpty then [] else v :: consequences

/-- The schemas that a look at what is left over uses. -/
def leftOver (schema : Value) (v : Value) : List Value :=
  if v = .bool true then []
  else v :: ((schema.get? "if").filter fun w => w.asObject?.isSome).toList

def patterned? (v : Value) : Option (List Value) := do
  let ms ← v.asObject?
  if ms.all fun (k, _) => isPattern k then some (ms.map (·.2)) else none

def areTypes : Value → Bool
  | .array vs => vs.all isTypeWord
  | v => isTypeWord v

/-- The schemas that validation uses in the value of a keyword, if it can use the value. -/
def parts? (u : Usage) (keyword : String) (v : Value) : Option (List Value) :=
  let schema := u.place.schema
  let applied (parts : Option (List Value)) := if u.has .applicator then parts else some []
  let checked (isRight : Bool) := if u.has .validation then guarded isRight else some []
  let since (d : List Draft) (parts : Option (List Value)) :=
    if d.contains u.draft then parts else some []
  let recent := [Draft.draft6, .draft7, .draft2019, .draft2020]
  match keyword with
  | "$ref" => guarded v.asString?.isSome
  | "$dynamicRef" => since [.draft2020] (guarded v.asString?.isSome)
  | "dependencies" => dependencies? v
  | "allOf" | "anyOf" | "oneOf" => applied (items? v)
  | "not" => applied (some [v])
  | "if" => since [.draft7, .draft2019, .draft2020] (applied (some (conditions schema v)))
  | "contains" =>
    since recent (applied (
      if isMatchLimit (schema.get? "minContains") && isMatchLimit (schema.get? "maxContains") then
        some [v]
      else none))
  | "items" => applied (itemSchemas? u.draft v)
  | "additionalItems" =>
    since [.draft4, .draft6, .draft7, .draft2019]
      (applied (additionalItems? (schema.get? "items") v))
  | "prefixItems" => since [.draft2020] (applied (items? v))
  | "properties" => applied (members? v)
  | "patternProperties" => applied (patterned? isPattern v)
  | "additionalProperties" => applied (some (if v = .bool true ∨ v = .bool false then [] else [v]))
  | "propertyNames" => since recent (applied (some (if v.asObject?.isSome then [v] else [])))
  | "dependentSchemas" => since [.draft2019, .draft2020] (applied (members? v))
  | "unevaluatedItems" | "unevaluatedProperties" =>
    since [.draft2019, .draft2020]
      (if u.has .unevaluated then some (leftOver schema v) else some [])
  | "type" => checked (areTypes v)
  | "enum" => checked (items? v).isSome
  | "multipleOf" | "maximum" | "minimum" => checked (isNumber v)
  | "exclusiveMaximum" | "exclusiveMinimum" => since recent (checked (isNumber v))
  | "maxLength" | "minLength" | "maxItems" | "minItems" | "maxProperties" | "minProperties" =>
    checked (isCountLimit u.draft v)
  | "uniqueItems" => checked (isBool v)
  | "pattern" => checked ((v.asString?.map isPattern).getD false)
  | "required" => checked (areStrings v)
  | "dependentRequired" =>
    since [.draft2019, .draft2020] (checked ((members? v).any fun vs => vs.all areNames))
  | _ => some []

/-- The keywords that are used. Before drafts were divided a reference hid those beside it. -/
def keywords (u : Usage) : List (String × Value) :=
  let ms := u.place.schema.asObject?.getD []
  if !u.draft.isDivided && (ms.lookup "$ref").isSome then ms.filter (·.1 = "$ref") else ms

def inner? (u : Usage) : Option (List Usage) :=
  match u.place.schema with
  | .bool _ => some []
  | .object _ =>
    (u.keywords.mapM fun (k, v) => u.parts? isPattern k v).map fun vs =>
      (List.flatten vs).map u.enter
  | _ => none

/-- A use and those inside it, to a depth, if validation can use all of them. -/
def within? : (depth : Nat) → Usage → Option (List Usage)
  | 0, _ => none
  | depth + 1, u => do
    let inner ← u.inner? isPattern
    let uses ← inner.mapM (within? depth)
    return u :: uses.flatten

def all? (u : Usage) : Option (List Usage) :=
  within? isPattern (u.place.schema.depth + 1) u

def references (u : Usage) : List String :=
  u.keywords.filterMap fun (k, v) =>
    if k = "$ref" || (k = "$dynamicRef" && u.draft = .draft2020) then v.asString? else none

def ofTarget (document : Value) (p : Place) : Usage :=
  ⟨p, p.draft, SchemaCheck.vocabularies document p.draft p.schema⟩

end Usage
end CredentialSchema.SchemaCheck

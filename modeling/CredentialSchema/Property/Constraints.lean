import CredentialSchema.Document.Reading

/-!
Constraints on a property's values. Every field is independent of the others and of the
property's kind; which of them apply is decided when a schema is compiled.
-/
namespace CredentialSchema

structure Constraints where
  maxLength : Option UInt64 := none
  minLength : Option UInt64 := none
  minimum : Option Bound := none
  maximum : Option Bound := none
  /-- How many decimal places are allowed. -/
  precision : Option UInt32 := none
  pattern : Option String := none
  format : Option String := none
  /-- The listed values, if any are. -/
  choices : List Json.Value := []
deriving DecidableEq, Repr, Inhabited

/-- A bound as a JSON value; one that is no number is null. -/
def Bound.toJson : Bound → Json.Value
  | .finite x => .number (.float x)
  | _ => .null

def Json.Value.ofNat (n : Nat) : Json.Value := .number (.integer n)

def optionalMember (name : String) (value : Option α) (write : α → Json.Value) :
    List (String × Json.Value) :=
  match value with
  | some v => [(name, write v)]
  | none => []

namespace Constraints

def withFormat (format : String) : Constraints := { format := some format }

def isEmpty (c : Constraints) : Bool := c == {}

def members (c : Constraints) : List (String × Json.Value) :=
  optionalMember "maxLength" c.maxLength (fun n => .ofNat n.toNat) ++
  optionalMember "minLength" c.minLength (fun n => .ofNat n.toNat) ++
  optionalMember "minimum" c.minimum Bound.toJson ++
  optionalMember "maximum" c.maximum Bound.toJson ++
  optionalMember "precision" c.precision (fun n => .ofNat n.toNat) ++
  optionalMember "pattern" c.pattern .string ++
  optionalMember "format" c.format .string ++
  (if c.choices.isEmpty then [] else [("enum", .array c.choices)])

def toJson (c : Constraints) : Json.Value := .object c.members

/-- The stored form where bounds that are no numbers can be written. -/
def toDocument (c : Constraints) : Document :=
  let bound (name : String) (v : Json.Value) : Document :=
    let number :=
      if name = "minimum" then c.minimum else if name = "maximum" then c.maximum else none
    match number with
    | some (.finite _) => .ofValue v
    | some b => .special b
    | none => .ofValue v
  .mapping (c.members.map fun (name, v) => (.text name, bound name v))

def fieldNames : List String :=
  ["maxLength", "minLength", "minimum", "maximum", "precision", "pattern", "format", "enum"]

def ofDocument? (d : Document) : Option Constraints := do
  let f ← d.fields? fieldNames
  let length (name : String) := f.optional name fun d => (d.natBelow? UInt64.size).map UInt64.ofNat
  return {
    maxLength := ← length "maxLength"
    minLength := ← length "minLength"
    minimum := ← f.optional "minimum" Document.bound?
    maximum := ← f.optional "maximum" Document.bound?
    precision := ← f.optional "precision" fun d => (d.natBelow? UInt32.size).map UInt32.ofNat
    pattern := ← f.optional "pattern" Document.string?
    format := ← f.optional "format" Document.string?
    choices := ← f.withDefault "enum" [] (Document.list? Document.toValue?) }

end Constraints
end CredentialSchema

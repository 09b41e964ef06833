import CredentialSchema.Identifier
import CredentialSchema.Property.Constraints
import CredentialSchema.Property.Kind

/-!
Properties. A property is what it declares about itself together with the properties it
holds: the members of an object in order, and the element definition of an array. The type
allows both on any property; `Legal` says which its kind permits.
-/
namespace CredentialSchema

structure Declaration where
  id : PropertyId
  name : String
  displayName : Option String := none
  description : Option String := none
  kind : Kind := .string
  /-- Whether the enclosing object requires the property. -/
  required : Bool := false
  constraints : Option Constraints := none
  /-- The catalogue entry that the property was imported from. -/
  source : Option String := none
deriving DecidableEq, Repr, Inhabited

structure Property where
  decl : Declaration
  members : List Property
  element : Option Property
deriving Repr, Inhabited

namespace Property

mutual
def decEq : (p q : Property) → Decidable (p = q)
  | ⟨d, ms, e⟩, ⟨d', ms', e'⟩ =>
    if hd : d = d' then
      match decEqList ms ms', decEqOption e e' with
      | isTrue h, isTrue h' => isTrue (hd ▸ h ▸ h' ▸ rfl)
      | isFalse h, _ => isFalse fun eq => h (Property.mk.inj eq).2.1
      | _, isFalse h => isFalse fun eq => h (Property.mk.inj eq).2.2
    else isFalse fun eq => hd (Property.mk.inj eq).1

def decEqList : (ps qs : List Property) → Decidable (ps = qs)
  | [], [] => isTrue rfl
  | [], _ :: _ => isFalse nofun
  | _ :: _, [] => isFalse nofun
  | p :: ps, q :: qs => match decEq p q, decEqList ps qs with
    | isTrue h, isTrue h' => isTrue (h ▸ h' ▸ rfl)
    | isFalse h, _ => isFalse fun e => h (List.cons.inj e).1
    | _, isFalse h => isFalse fun e => h (List.cons.inj e).2

def decEqOption : (p q : Option Property) → Decidable (p = q)
  | none, none => isTrue rfl
  | none, some _ => isFalse nofun
  | some _, none => isFalse nofun
  | some p, some q => match decEq p q with
    | isTrue h => isTrue (h ▸ rfl)
    | isFalse h => isFalse fun e => h (Option.some.inj e)
end

instance : DecidableEq Property := decEq

abbrev id (p : Property) : PropertyId := p.decl.id

abbrev name (p : Property) : String := p.decl.name

abbrev kind (p : Property) : Kind := p.decl.kind

/-- A property with a fresh identifier, no name and nothing below it. -/
def fresh (id : PropertyId) (kind : Kind) (name : String) : Property :=
  ⟨{ id, name, kind }, [], none⟩

mutual
/-- The identifiers of a property and everything below it, depth first: the property, its
members in order, then its element definition. -/
def ids : Property → List PropertyId
  | ⟨d, ms, e⟩ => d.id :: (idsOfList ms ++ idsOfOption e)

def idsOfList : List Property → List PropertyId
  | [] => []
  | p :: ps => ids p ++ idsOfList ps

def idsOfOption : Option Property → List PropertyId
  | none => []
  | some p => ids p
end

/-- Whether what the property holds directly is permitted by its kind: members only on an
object, an element definition only on an array. -/
def hasLegalChildren (p : Property) : Bool :=
  (p.members.isEmpty || p.kind == .object) && (p.element.isNone || p.kind == .array)

end Property
end CredentialSchema

import CredentialSchema.Property.Basic

/-!
Patches: new values for some of a property's fields. Renaming an array renames the chain of
its element definitions, and a change of kind drops what the new kind may not hold.
-/
namespace CredentialSchema

/-- The fields to set; for a field that may be absent the inner `none` clears it. -/
structure Patch where
  name : Option String := none
  displayName : Option (Option String) := none
  description : Option (Option String) := none
  kind : Option Kind := none
  required : Option Bool := none
  constraints : Option (Option Constraints) := none
deriving DecidableEq, Repr

namespace Property

mutual
def renameChain (name : String) : Property → Property
  | ⟨d, ms, e⟩ => ⟨{ d with name := name }, ms, renameElement name e⟩

def renameElement (name : String) : Option Property → Option Property
  | none => none
  | some p => some (renameChain name p)
end

/-- Changes the kind and drops what the new kind may not hold. -/
def changeKind (kind : Kind) (p : Property) : Property :=
  if kind = p.kind then p
  else
    ⟨{ p.decl with kind }, if kind = .object then p.members else [],
      if kind = .array then p.element else none⟩

def patch (u : Patch) (p : Property) : Property :=
  let p := match u.name with
    | some name => renameChain name p
    | none => p
  let p : Property := { p with decl := { p.decl with
    displayName := u.displayName.getD p.decl.displayName
    description := u.description.getD p.decl.description
    required := u.required.getD p.decl.required
    constraints := u.constraints.getD p.decl.constraints } }
  match u.kind with
  | some kind => changeKind kind p
  | none => p

end Property
end CredentialSchema

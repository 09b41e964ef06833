import CredentialSchema.Tree.Basic

/-!
Loading trees. Stored properties make a tree if their identifiers are pairwise distinct and
each holds only what its kind permits; otherwise the first defect in depth-first order is
reported, at each property the identifier before the children.
-/
namespace CredentialSchema

namespace Property

mutual
/-- Checks a property after the identifiers seen before it, and returns those seen after it. -/
def check (seen : List PropertyId) : Property → Except Violation (List PropertyId)
  | ⟨d, ms, e⟩ =>
    if seen.contains d.id then .error (.duplicateId d.id)
    else if hasLegalChildren ⟨d, ms, e⟩ then
      (checkList (d.id :: seen) ms).bind fun seen => checkOption seen e
    else .error (.illegalChildren d.id d.kind)

def checkList (seen : List PropertyId) : List Property → Except Violation (List PropertyId)
  | [] => .ok seen
  | p :: ps => (check seen p).bind fun seen => checkList seen ps

def checkOption (seen : List PropertyId) : Option Property → Except Violation (List PropertyId)
  | none => .ok seen
  | some p => check seen p
end

end Property

inductive LoadError
  /-- Some part does not have the form of what it should be. -/
  | malformed
  | violation (v : Violation)
deriving DecidableEq, Repr

namespace Tree

def ofProperties (roots : List Property) : Except Violation Tree :=
  (Property.checkList [] roots).map fun _ => ⟨roots, 0⟩

def load (d : Document) : Except LoadError Tree :=
  match Property.listOf? d with
  | none => .error .malformed
  | some roots => (ofProperties roots).mapError .violation

end Tree
end CredentialSchema

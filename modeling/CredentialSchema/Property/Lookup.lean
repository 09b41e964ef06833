import CredentialSchema.Property.Basic

/-!
Finding properties by identifier. Every walk visits a property before what it holds, its
members in order and then its element definition, and stops at the first match.
-/
namespace CredentialSchema.Property

mutual
def find? (id : PropertyId) : Property → Option Property
  | ⟨d, ms, e⟩ =>
    if d.id = id then some ⟨d, ms, e⟩ else (findInList? id ms).or (findInOption? id e)

def findInList? (id : PropertyId) : List Property → Option Property
  | [] => none
  | p :: ps => (find? id p).or (findInList? id ps)

def findInOption? (id : PropertyId) : Option Property → Option Property
  | none => none
  | some p => find? id p
end

mutual
/-- The identifiers on the way from a property down to the one sought, both included. -/
def path? (id : PropertyId) : Property → Option (List PropertyId)
  | ⟨d, ms, e⟩ =>
    if d.id = id then some [d.id]
    else ((pathInList? id ms).or (pathInOption? id e)).map (d.id :: ·)

def pathInList? (id : PropertyId) : List Property → Option (List PropertyId)
  | [] => none
  | p :: ps => (path? id p).or (pathInList? id ps)

def pathInOption? (id : PropertyId) : Option Property → Option (List PropertyId)
  | none => none
  | some p => path? id p
end

end CredentialSchema.Property

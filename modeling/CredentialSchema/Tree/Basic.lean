import CredentialSchema.Property.Edit
import CredentialSchema.Property.Lookup
import CredentialSchema.Property.Patch
import CredentialSchema.Property.Stored

/-!
Property trees: the top-level properties of a project with a revision that counts the
changes applied in this session. An operation that is illegal is a violation, one whose
target is missing has no result, and both leave nothing to keep; every other operation
returns the changed tree, one revision further.
-/
namespace CredentialSchema

inductive Violation
  /-- Members can be added to an object only. -/
  | notAnObject (id : PropertyId) (actual : Kind)
  /-- An element definition can be given to an array only. -/
  | notAnArray (id : PropertyId) (actual : Kind)
  /-- Two stored properties have one identifier. -/
  | duplicateId (id : PropertyId)
  /-- A stored property holds what its kind does not permit. -/
  | illegalChildren (id : PropertyId) (kind : Kind)
deriving DecidableEq, Repr

def Violation.message : Violation → String
  | .notAnObject id actual =>
    "cannot add a property under " ++ id.text ++ ": a " ++ actual.text ++
      " node has no named properties"
  | .notAnArray id actual =>
    "cannot set items on " ++ id.text ++ ": a " ++ actual.text ++ " node has no item definition"
  | .duplicateId id => "duplicate property id " ++ id.text
  | .illegalChildren id kind =>
    "property " ++ id.text ++ " of type " ++ kind.text ++
      " carries children its type does not permit"

structure Tree where
  roots : List Property
  /-- The changes so far. It stands for a counter of 64 bits: 2 ^ 64 changes are out of reach. -/
  revision : Nat
deriving DecidableEq, Repr, Inhabited

namespace Tree

def empty : Tree := ⟨[], 0⟩

def ids (t : Tree) : List PropertyId := Property.idsOfList t.roots

def size (t : Tree) : Nat := t.ids.length

def find? (t : Tree) (id : PropertyId) : Option Property := Property.findInList? id t.roots

def contains (t : Tree) (id : PropertyId) : Bool := (t.find? id).isSome

/-- The identifiers from the top level down to this one. -/
def path? (t : Tree) (id : PropertyId) : Option (List PropertyId) :=
  Property.pathInList? id t.roots

/-- The property that holds this one; top-level properties have none. -/
def parent? (t : Tree) (id : PropertyId) : Option PropertyId :=
  (t.path? id).bind fun path => path.dropLast.getLast?

def advance (t : Tree) (roots : List Property) : Tree := ⟨roots, t.revision + 1⟩

def modify? (t : Tree) (id : PropertyId) (f : Property → Property) : Option Tree :=
  (Property.modifyInList? id f t.roots).map t.advance

/-- Adds an unnamed string property under a fresh identifier, at the end of an object's
members or, without a parent, of the top level. -/
def add (t : Tree) (fresh : PropertyId) (parent : Option PropertyId) :
    Except Violation (Option (PropertyId × Tree)) :=
  let new := Property.fresh fresh .string ""
  match parent with
  | none => .ok (some (fresh, t.advance (t.roots ++ [new])))
  | some parent =>
    match t.find? parent with
    | none => .ok none
    | some p =>
      if p.kind = .object then
        .ok ((t.modify? parent fun p => { p with members := p.members ++ [new] }).map (fresh, ·))
      else .error (.notAnObject parent p.kind)

def delete? (t : Tree) (id : PropertyId) : Option (Property × Tree) :=
  (Property.removeInList? id t.roots).map fun (gone, roots) => (gone, t.advance roots)

/-- Exchanges a property with its neighbour; none at the boundary, for an element definition
and for a missing property. -/
def move? (t : Tree) (id : PropertyId) (dir : Direction) : Option Tree :=
  (Property.shiftInList id dir t.roots).moved?.map t.advance

def update? (t : Tree) (id : PropertyId) (u : Patch) : Option Tree :=
  t.modify? id (Property.patch u)

/-- Gives an array a new element definition under a fresh identifier, in place of any it had.
The element has the array's name. -/
def setElement (t : Tree) (fresh : PropertyId) (id : PropertyId) (kind : Kind) :
    Except Violation (Option (PropertyId × Tree)) :=
  match t.find? id with
  | none => .ok none
  | some p =>
    if p.kind = .array then
      .ok ((t.modify? id fun p => { p with element := some (.fresh fresh kind p.name) }).map
        (fresh, ·))
    else .error (.notAnArray id p.kind)

def setSource? (t : Tree) (id : PropertyId) (source : String) : Option Tree :=
  t.modify? id fun p => { p with decl := { p.decl with source := some source } }

def toJson (t : Tree) : Json.Value := .array (Property.listToJson t.roots)

end Tree
end CredentialSchema

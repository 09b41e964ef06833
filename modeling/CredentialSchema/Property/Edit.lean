import CredentialSchema.Property.Basic

/-!
Editing one property in place, removing it, and exchanging it with a neighbour. Each edit
finds its property as a lookup does and leaves everything else as it was; where there is
nothing to edit the result is none. A search that ends at a property that cannot be moved goes no
further.
-/
namespace CredentialSchema

inductive Direction
  | up
  | down
deriving DecidableEq, Repr

namespace Direction

def text : Direction → String
  | .up => "up"
  | .down => "down"

def ofText? (s : String) : Option Direction := [up, down].find? fun d => d.text == s

def ofDocument? : Document → Option Direction := Document.variant? ofText?

def opposite : Direction → Direction
  | .up => .down
  | .down => .up

end Direction

/-- What comes of shifting a property among its siblings. -/
inductive Shift (α : Type)
  /-- It is not here. -/
  | absent
  /-- It is here and has no neighbour to change places with. -/
  | stuck
  | moved (result : α)
deriving DecidableEq, Repr

namespace Shift

def map (f : α → β) : Shift α → Shift β
  | .absent => .absent
  | .stuck => .stuck
  | .moved a => .moved (f a)

def moved? : Shift α → Option α
  | .moved a => some a
  | _ => none

theorem map_eq_moved_iff {f : α → β} {s : Shift α} {b : β} :
    s.map f = .moved b ↔ ∃ a, s = .moved a ∧ f a = b := by
  cases s <;> simp [map]

theorem moved?_eq_some_iff {s : Shift α} {a : α} : s.moved? = some a ↔ s = .moved a := by
  cases s <;> simp [moved?]

end Shift

namespace Property

mutual
def modify? (id : PropertyId) (f : Property → Property) : Property → Option Property
  | ⟨d, ms, e⟩ =>
    if d.id = id then some (f ⟨d, ms, e⟩)
    else match modifyInList? id f ms with
      | some ms => some ⟨d, ms, e⟩
      | none => (modifyInOption? id f e).map fun e => ⟨d, ms, e⟩

def modifyInList? (id : PropertyId) (f : Property → Property) :
    List Property → Option (List Property)
  | [] => none
  | p :: ps => match modify? id f p with
    | some p => some (p :: ps)
    | none => (modifyInList? id f ps).map (p :: ·)

def modifyInOption? (id : PropertyId) (f : Property → Property) :
    Option Property → Option (Option Property)
  | none => none
  | some p => (modify? id f p).map some
end

mutual
def removeBelow? (id : PropertyId) : Property → Option (Property × Property)
  | ⟨d, ms, e⟩ =>
    match removeInList? id ms with
    | some (gone, ms) => some (gone, ⟨d, ms, e⟩)
    | none => (removeInOption? id e).map fun (gone, e) => (gone, ⟨d, ms, e⟩)

def removeInList? (id : PropertyId) : List Property → Option (Property × List Property)
  | [] => none
  | p :: ps =>
    if p.id = id then some (p, ps)
    else match removeBelow? id p with
      | some (gone, p) => some (gone, p :: ps)
      | none => (removeInList? id ps).map fun (gone, ps) => (gone, p :: ps)

def removeInOption? (id : PropertyId) : Option Property → Option (Property × Option Property)
  | none => none
  | some p =>
    if p.id = id then some (p, none)
    else (removeBelow? id p).map fun (gone, p) => (gone, some p)
end

def shiftFirst (dir : Direction) (p : Property) : List Property → Shift (List Property)
  | q :: ps => match dir with
    | .up => .stuck
    | .down => .moved (q :: p :: ps)
  | [] => .stuck

/-- Raises the first of some siblings above the one before them, if it is the one to raise. -/
def raiseOver? (id : PropertyId) (dir : Direction) (p : Property) :
    List Property → Option (List Property)
  | q :: ps => if dir = .up ∧ q.id = id then some (q :: p :: ps) else none
  | [] => none

mutual
/-- Shifts the property with this identifier somewhere below a property, which has its members
searched before its element definition. -/
def shiftBelow (id : PropertyId) (dir : Direction) : Property → Shift Property
  | ⟨d, ms, e⟩ =>
    match shiftInList id dir ms with
    | .absent => (shiftInOption id dir e).map fun e => ⟨d, ms, e⟩
    | found => found.map fun ms => ⟨d, ms, e⟩

/-- Shifts it among siblings or below one of them. Each is searched before the next one is looked
at, and where that is the one to raise it changes places with the one just searched. -/
def shiftInList (id : PropertyId) (dir : Direction) : List Property → Shift (List Property)
  | [] => .absent
  | p :: ps =>
    if p.id = id then shiftFirst dir p ps
    else match shiftBelow id dir p with
      | .absent => match raiseOver? id dir p ps with
        | some raised => .moved raised
        | none => (shiftInList id dir ps).map (p :: ·)
      | found => found.map (· :: ps)

def shiftInOption (id : PropertyId) (dir : Direction) : Option Property → Shift (Option Property)
  | none => .absent
  | some p => if p.id = id then .stuck else (shiftBelow id dir p).map some
end

end Property
end CredentialSchema

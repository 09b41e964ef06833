import CredentialSchema.Project.Basic
import CredentialSchema.Session.Ticket

/-!
Editing sessions: one project with a selection, a set of expanded properties and the
generation of the imports begun in it. Selection and expansion never change the tree, and a
property that is destroyed drops out of both.
-/
namespace CredentialSchema

structure Session where
  project : Project
  selected : Option PropertyId
  /-- The expanded properties, without repetition. -/
  expanded : List PropertyId
  /-- The imports begun or cancelled so far, and the projects put in place. Like a revision it has
  no bound here and 64 bits where a session runs, which 2 ^ 64 commands would have to fill. -/
  generation : Nat
deriving DecidableEq, Repr

namespace Session

def start (project : Project) : Session := ⟨project, none, [], 0⟩

def tree (s : Session) : Tree := s.project.tree

def withTree (s : Session) (t : Tree) : Session :=
  { s with project := { s.project with tree := t } }

/-- Puts another project in place, with nothing selected or expanded and every ticket void. -/
def replaceProject (s : Session) (project : Project) : Session :=
  ⟨project, none, [], s.generation + 1⟩

def setMetadata (s : Session) (metadata : Metadata) : Session :=
  { s with project := { s.project with metadata } }

def forget (s : Session) (gone : List PropertyId) : Session :=
  { s with
    selected := s.selected.filter fun id => !gone.contains id
    expanded := s.expanded.filter fun id => !gone.contains id }

/-- The session with a tree from which some identifiers may have gone. -/
def settle (s : Session) (t : Tree) : Session :=
  (s.withTree t).forget (s.tree.ids.filter fun id => !t.ids.contains id)

def add (s : Session) (fresh : PropertyId) (parent : Option PropertyId) :
    Except Violation (Option (PropertyId × Session)) :=
  (s.tree.add fresh parent).map fun r => r.map fun (id, t) => (id, s.withTree t)

def delete? (s : Session) (id : PropertyId) : Option Session :=
  (s.tree.delete? id).map fun (gone, t) => (s.withTree t).forget gone.ids

def move? (s : Session) (id : PropertyId) (dir : Direction) : Option Session :=
  (s.tree.move? id dir).map s.withTree

def update? (s : Session) (id : PropertyId) (u : Patch) : Option Session :=
  (s.tree.update? id u).map s.settle

def setElement (s : Session) (fresh id : PropertyId) (kind : Kind) :
    Except Violation (Option (PropertyId × Session)) :=
  (s.tree.setElement fresh id kind).map fun r => r.map fun (id, t) => (id, s.settle t)

/-- Selects a property; one that is not there clears the selection. -/
def select (s : Session) (id : Option PropertyId) : Session :=
  { s with selected := id.filter s.tree.contains }

/-- Expands or collapses a property; one that is not there stays out. -/
def toggle (s : Session) (id : PropertyId) : Session :=
  if s.expanded.contains id then { s with expanded := s.expanded.filter (· != id) }
  else if s.tree.contains id then { s with expanded := s.expanded ++ [id] }
  else s

def expandAll (s : Session) : Session :=
  let containers := s.tree.ids.filter fun id =>
    ((s.tree.find? id).map fun p => p.kind.isContainer).getD false
  { s with expanded := s.expanded ++ containers.filter fun id => !s.expanded.contains id }

def collapseAll (s : Session) : Session := { s with expanded := [] }

/-- Begins an import, which voids every earlier ticket. -/
def beginImport (s : Session) (target : Option PropertyId) : Ticket × Session :=
  (.issue (s.generation + 1) s.tree target, { s with generation := s.generation + 1 })

def cancelImport (s : Session) : Session := { s with generation := s.generation + 1 }

def completeImport (s : Session) (k : Ticket) (candidates : List Candidate) (source : IdSource) :
    Except Violation (ImportOutcome × Session × IdSource) :=
  (k.complete s.generation s.tree candidates source).map fun (outcome, t, source) =>
    (outcome, s.withTree t, source)

/-- Fetches candidates and applies them at once. A failed fetch leaves only the ticket spent. -/
def importFrom (s : Session) (target : Option PropertyId) (fetched : Except ε (List Candidate))
    (source : IdSource) :
    Except ε (Except Violation (ImportOutcome × Session × IdSource)) × Session :=
  let (k, s) := s.beginImport target
  (fetched.map fun candidates => s.completeImport k candidates source, s)

def fetchFailedMessage (cause : String) : String := "vocabulary fetch failed: " ++ cause

end Session
end CredentialSchema

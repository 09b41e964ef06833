import CredentialSchema.Tree.Basic
import CredentialSchema.Vocabulary.Candidate
import CredentialSchema.Vocabulary.ValueType

/-!
Importing candidates into a container: the top level or one object. A candidate is skipped
if a child of the container comes from the same catalogue entry or has the same name; any
other is added as a new last child and filled in. Existing properties are never changed.
-/
namespace CredentialSchema

inductive SkipReason
  | alreadyImported
  | nameTaken
deriving DecidableEq, Repr

namespace SkipReason

def text : SkipReason → String
  | .alreadyImported => "already-imported"
  | .nameTaken => "name-taken"

def ofText? (s : String) : Option SkipReason :=
  [alreadyImported, nameTaken].find? fun r => r.text == s

end SkipReason

/-- A candidate that was passed over, with the sibling that stood in its way. -/
structure Skip where
  candidateId : String
  name : String
  reason : SkipReason
  existing : PropertyId
deriving DecidableEq, Repr

structure ImportReport where
  imported : List PropertyId := []
  skipped : List Skip := []
deriving DecidableEq, Repr

def Skip.toJson (s : Skip) : Json.Value :=
  .object [("candidateId", .string s.candidateId), ("name", .string s.name),
    ("reason", .string s.reason.text), ("existing", s.existing.toJson)]

def Skip.ofDocument? (d : Document) : Option Skip := do
  let f ← d.fields? ["candidateId", "name", "reason", "existing"]
  return {
    candidateId := ← f.required "candidateId" Document.string?
    name := ← f.required "name" Document.string?
    reason := ← f.required "reason" (Document.variant? SkipReason.ofText?)
    existing := ← f.required "existing" PropertyId.ofDocument? }

def ImportReport.toJson (r : ImportReport) : Json.Value :=
  .object [("imported", .array (r.imported.map PropertyId.toJson)),
    ("skipped", .array (r.skipped.map Skip.toJson))]

def ImportReport.ofDocument? (d : Document) : Option ImportReport := do
  let f ← d.fields? ["imported", "skipped"]
  return {
    imported := ← f.required "imported" (Document.list? PropertyId.ofDocument?)
    skipped := ← f.required "skipped" (Document.list? Skip.ofDocument?) }

/-- The sibling that keeps a candidate out: one from the same catalogue entry, else one of the
same name. A nameless candidate has no name to clash. -/
def Candidate.obstacle? (c : Candidate) (siblings : List Property) :
    Option (PropertyId × SkipReason) :=
  match siblings.find? fun p => p.decl.source == some c.id with
  | some p => some (p.id, .alreadyImported)
  | none =>
    (siblings.find? fun p => c.name != "" && p.name == c.name).map fun p => (p.id, .nameTaken)

/-- The constraints of a candidate with the format that its value type implies, unless they
name one. -/
def Candidate.mergedConstraints (c : Candidate) (format : Option String) : Constraints :=
  let given := c.constraints.getD {}
  { given with format := given.format.or format }

namespace Tree

/-- Gives a property the levels of a shape, with a fresh element definition each, and the
candidate's constraints at the innermost. -/
def applyShape (c : Candidate) : Shape → Tree → PropertyId → IdSource → Tree × IdSource
  | .listOf element, t, id, source =>
    match t.setElement (source.ahead 0) id element.kind with
    | .ok (some (elementId, t)) => applyShape c element t elementId (source.advance 1)
    | _ => (t, source)
  | .scalar _ format, t, id, source =>
    let merged := c.mergedConstraints format
    if merged.isEmpty then (t, source)
    else ((t.update? id { constraints := some (some merged) }).getD t, source)

def populate (c : Candidate) (t : Tree) (id : PropertyId) (source : IdSource) :
    Tree × IdSource :=
  let shape := ValueType.shape c.valueType
  let t := (t.update? id {
    name := some c.name
    displayName := some c.displayName
    description := some c.description
    kind := some shape.kind }).getD t
  let t := (t.setSource? id c.id).getD t
  t.applyShape c shape id source

def children (t : Tree) (target : Option PropertyId) : List Property :=
  match target with
  | none => t.roots
  | some id => ((t.find? id).map Property.members).getD []

/-- Imports candidates one after the other into a container that is known to accept them. A
violation ends the import where it stands, with what was imported before left in the tree. -/
def importEach (target : Option PropertyId) :
    List Candidate → Tree → IdSource → ImportReport →
      Except Violation ImportReport × Tree × IdSource
  | [], t, source, report => (.ok report, t, source)
  | c :: cs, t, source, report =>
    match c.obstacle? (t.children target) with
    | some (existing, reason) =>
      importEach target cs t source
        { report with skipped := report.skipped ++ [⟨c.id, c.name, reason, existing⟩] }
    | none =>
      match t.add (source.ahead 0) target with
      | .error v => (.error v, t, source)
      | .ok none => importEach target cs t source report
      | .ok (some (id, t)) =>
        let (t, source) := t.populate c id (source.advance 1)
        importEach target cs t source { report with imported := report.imported ++ [id] }

/-- Imports candidates under an object, or at the top level without a target, and leaves a tree
whatever comes of it. A missing target gives no report and one that is no object a violation,
before anything is added. -/
def importInto (t : Tree) (target : Option PropertyId) (candidates : List Candidate)
    (source : IdSource) : Except Violation (Option ImportReport) × Tree × IdSource :=
  let all := importEach target candidates t source {}
  match target with
  | none => (all.1.map some, all.2)
  | some id =>
    match t.find? id with
    | none => (.ok none, t, source)
    | some p =>
      if p.kind = .object then (all.1.map some, all.2)
      else (.error (.notAnObject id p.kind), t, source)

/-- An import for those who keep its tree only where it succeeds. -/
def import? (t : Tree) (target : Option PropertyId) (candidates : List Candidate)
    (source : IdSource) : Except Violation (Option (Tree × IdSource × ImportReport)) :=
  let (outcome, t, source) := t.importInto target candidates source
  outcome.map fun report => report.map fun report => (t, source, report)

end Tree
end CredentialSchema

import CredentialSchema.Property.Stored

/-!
Compiler warnings: properties that compile to something degenerate, each with the dotted
path of names that leads to it.
-/
namespace CredentialSchema

inductive Defect
  /-- It has no name and compiles under the empty one. -/
  | emptyName
  /-- A sibling before it has the same name; it is left out. -/
  | duplicateName
  /-- It is an array without an element definition. -/
  | missingElement
  /-- A leaf before it has claimed its term. -/
  | duplicateTerm
deriving DecidableEq, Repr

namespace Defect

def text : Defect → String
  | .emptyName => "empty-name"
  | .duplicateName => "duplicate-name"
  | .missingElement => "missing-items"
  | .duplicateTerm => "duplicate-term"

def ofText? (s : String) : Option Defect :=
  [emptyName, duplicateName, missingElement, duplicateTerm].find? fun d => d.text == s

def message : Defect → String
  | .emptyName => "property has an empty name"
  | .duplicateName => "duplicate sibling name, later property omitted"
  | .missingElement => "array has no item definition"
  | .duplicateTerm => "duplicate context term, later property omitted"

end Defect

structure Warning where
  id : PropertyId
  path : String
  defect : Defect
deriving DecidableEq, Repr

namespace Warning

/-- The path of a named child: its name, after the path of its parent and a dot if there is
one. -/
def childPath (parent name : String) : String :=
  if parent.isEmpty then name else parent ++ "." ++ name

def elementPath (array : String) : String := array ++ "[]"

def toJson (w : Warning) : Json.Value :=
  .object [("nodeId", w.id.toJson), ("path", .string w.path), ("kind", .string w.defect.text)]

def ofDocument? (d : Document) : Option Warning := do
  let f ← d.fields? ["nodeId", "path", "kind"]
  return {
    id := ← f.required "nodeId" PropertyId.ofDocument?
    path := ← f.required "path" Document.string?
    defect := ← f.required "kind" (Document.variant? Defect.ofText?) }

def text (w : Warning) : String :=
  "'" ++ w.path ++ "' (" ++ w.id.text ++ "): " ++ w.defect.message

end Warning

structure Compiled where
  document : Json.Value
  warnings : List Warning
deriving DecidableEq, Repr

end CredentialSchema

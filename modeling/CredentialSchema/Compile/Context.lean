import CredentialSchema.Compile.Warning
import CredentialSchema.Project.Metadata
import CredentialSchema.Text.Search
import CredentialSchema.Tree.Basic
import CredentialSchema.Url.Context

/-!
The context pass: a tree as one flat table of linked-data terms. Only leaves give terms;
objects and arrays are walked through. The first leaf with a name defines its term, and the
two header keys are taken from the start.
-/
namespace CredentialSchema

structure Namespaces where
  /-- Where context documents are published. -/
  context : String := ContextUrl.defaultBase
  /-- What a bare catalogue id is appended to. -/
  vocabulary : String := "https://vocab.credef.dev/properties/"
deriving DecidableEq, Repr, Inhabited

namespace ContextPass

open Json (Value)

def isAbsoluteIri (s : String) : Bool :=
  Text.hasAuthorityMark s || "urn:".toList.isPrefixOf s.toList

/-- The IRI of a leaf: its catalogue id, made absolute, or a fragment of the context URL. -/
def termIri (url vocabulary : String) (d : Declaration) : String :=
  match Text.present d.source with
  | some source => if isAbsoluteIri source then source else vocabulary ++ source
  | none => url ++ "#" ++ d.name

/-- The table of terms so far, header keys included. -/
abbrev Terms := List (String × Value)

def Terms.has (terms : Terms) (name : String) : Bool := terms.any fun m => m.1 == name

def term (url vocabulary path : String) (terms : Terms) (d : Declaration) :
    Terms × List Warning :=
  let unnamed := if d.name.isEmpty then [⟨d.id, path, .emptyName⟩] else []
  if terms.has d.name then (terms, unnamed ++ [⟨d.id, path, .duplicateTerm⟩])
  else (terms ++ [(d.name, .string (termIri url vocabulary d))], unnamed)

mutual
def visit (url vocabulary path : String) (terms : Terms) : Property → Terms × List Warning
  | ⟨d, ms, e⟩ =>
    match d.kind with
    | .object => visitMembers url vocabulary path terms ms
    | .array => visitElement url vocabulary path terms d e
    | _ => term url vocabulary path terms d

def visitMembers (url vocabulary path : String) (terms : Terms) :
    List Property → Terms × List Warning
  | [] => (terms, [])
  | p :: ps =>
    let (terms, first) := visit url vocabulary (Warning.childPath path p.name) terms p
    let (terms, rest) := visitMembers url vocabulary path terms ps
    (terms, first ++ rest)

def visitElement (url vocabulary path : String) (terms : Terms) (array : Declaration) :
    Option Property → Terms × List Warning
  | none => (terms, [⟨array.id, path, .missingElement⟩])
  | some p => visit url vocabulary (Warning.elementPath path) terms p
end

/-- The keys that every context begins with: the version of the format, and that terms may not
be redefined. -/
def header : Terms :=
  let version := (Binary64.ofDecimal? false 11 (-1)).map fun x => Value.number (.float x)
  [("@version", version.getD .null), ("@protected", .bool true)]

def url (m : Metadata) (n : Namespaces) : String :=
  ContextUrl.derive n.context m.title m.category m.credentialName

def compile (t : Tree) (m : Metadata) (n : Namespaces) : Compiled :=
  let (terms, warnings) := visitMembers (url m n) n.vocabulary "" header t.roots
  ⟨.object [("@context", .object terms), ("@id", .string (url m n))], warnings⟩

end ContextPass
end CredentialSchema

import CredentialSchema.Json.Value
import CredentialSchema.Text.Search

/-!
The check of context documents: an absolute identifying URL and a table of terms, each an IRI.
Keys that begin with an at sign are not terms.
-/
namespace CredentialSchema.ContextCheck

open Json (Value)

structure Malformed where
  location : String
  reason : String
deriving DecidableEq, Repr

def Malformed.message (m : Malformed) : String :=
  "malformed context document at '" ++ m.location ++ "': " ++ m.reason

def checkTerms : List (String × Value) → Except Malformed Unit
  | [] => .ok ()
  | (term, value) :: ms =>
    if term.toList.head? = some '@' then checkTerms ms
    else match value with
    | .string iri =>
      if iri.isEmpty then .error ⟨term, "term IRI is empty"⟩ else checkTerms ms
    | _ => .error ⟨term, "term definition is not an IRI string"⟩

def check (document : Value) : Except Malformed Unit :=
  match (document.get? "@id").bind Value.asString? with
  | none => .error ⟨"@id", "missing or not a string"⟩
  | some id =>
    if Text.hasAuthorityMark id then
      match (document.get? "@context").bind Value.asObject? with
      | none => .error ⟨"@context", "missing or not an object"⟩
      | some terms => checkTerms terms
    else .error ⟨"@id", "not an absolute URL"⟩

end CredentialSchema.ContextCheck

import CredentialSchema.Catalog.Config
import CredentialSchema.Json.Reader

/-!
Exchanges with the catalogue service. An attempt at a request ends without an answer or with
a status and a body. A lost request and a server error are tried again, at most three times;
the last attempt decides. What the deciding outcome means is the same for every endpoint.
-/
namespace CredentialSchema

inductive Outcome
  /-- No answer came. -/
  | lost
  | response (status : Nat) (body : String)
deriving DecidableEq, Repr

namespace Outcome

/-- Whether another attempt may end better: no answer came or the server failed. -/
def isTransient : Outcome → Bool
  | .lost => true
  | .response status _ => 500 ≤ status && status < 600

end Outcome

/-- How attempts end, by their number from zero. -/
abbrev Outcomes := Nat → Outcome

def Outcomes.drop (o : Outcomes) (count : Nat) : Outcomes := fun i => o (count + i)

def maxRetries : Nat := 3

/-- Attempts a request until an outcome is not transient, or no retry is left. Returns how many
attempts were made and the last outcome. -/
def attempt : (retries : Nat) → Outcomes → Nat × Outcome
  | 0, o => (1, o 0)
  | retries + 1, o =>
    if (o 0).isTransient then
      let (count, last) := attempt retries (o.drop 1)
      (count + 1, last)
    else (1, o 0)

inductive CatalogError
  /-- No answer came. -/
  | unanswered (endpoint : String)
  /-- The status says that the call failed. -/
  | refused (endpoint : String) (status : Nat) (body : String)
  /-- The body is not what the endpoint lists. -/
  | unreadable (endpoint : String)
  | config (error : ConfigError)
deriving DecidableEq, Repr

def CatalogError.message : CatalogError → String
  | .unanswered endpoint => "HTTP error calling " ++ endpoint ++ ": error sending request"
  | .refused endpoint status body =>
    "catalog " ++ endpoint ++ " returned " ++ toString status ++ ": " ++ body
  | .unreadable endpoint =>
    "failed to deserialize response from " ++ endpoint ++ ": error decoding response body"
  | .config error => "configuration error: " ++ error.message

def Outcome.decode (endpoint : String) (read : Document → Option α) :
    Outcome → Except CatalogError (List α)
  | .lost => .error (.unanswered endpoint)
  | .response status body =>
    if 200 ≤ status ∧ status < 300 then
      match (Json.read? body).bind (Document.list? read) with
      | some items => .ok items
      | none => .error (.unreadable endpoint)
    else .error (.refused endpoint status body)

end CredentialSchema

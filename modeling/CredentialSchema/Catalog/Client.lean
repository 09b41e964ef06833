import CredentialSchema.Catalog.Exchange
import CredentialSchema.Catalog.Issuer
import CredentialSchema.Url.Path

/-!
The client of the catalogue service. It has two calls, for the entries of a classification
and for the issuers; each is one request, attempted as often as an exchange allows.
-/
namespace CredentialSchema

structure Request where
  url : Url
  authorization : String
deriving DecidableEq, Repr

/-- A call: the request made, how many times it was sent, and what came of it. -/
structure Call (α : Type) where
  request : Request
  attempts : Nat
  result : Except CatalogError α

structure CatalogClient where
  authorization : String
  entries : Url
  issuers : Url
deriving DecidableEq, Repr

namespace CatalogClient

def resourceUrl (base : Url) (resource : List String) : Except ConfigError Url :=
  (base.resource (["catalog", "api", "v1"] ++ resource)).mapError (.invalidUrl base.text)

/-- The client of a configuration. A token that cannot be sent goes before a bad URL. -/
def ofConfig (c : CatalogConfig) : Except ConfigError CatalogClient := do
  return {
    authorization := ← c.authorization
    entries := ← resourceUrl c.base ["vocabulary", "properties"]
    issuers := ← resourceUrl c.base ["entities"] }

def withQuery (u : Url) (pairs : List (String × String)) : Url :=
  let pair (p : String × String) := Percent.form p.1 ++ "=" ++ Percent.form p.2
  { u with query := some ("&".intercalate (pairs.map pair)) }

def call (c : CatalogClient) (url : Url) (decode : Outcome → Except CatalogError α)
    (o : Outcomes) : Call α :=
  let (attempts, last) := attempt maxRetries o
  { request := ⟨url, c.authorization⟩, attempts, result := decode last }

def entriesEndpoint : String := "GET /vocabulary/properties"

def issuersEndpoint : String := "GET /entities"

def listEntries (c : CatalogClient) (classification : String) (o : Outcomes) :
    Call (List CatalogEntry) :=
  c.call (withQuery c.entries [("classification", classification)])
    (Outcome.decode entriesEndpoint CatalogEntry.ofDocument?) o

def listIssuers (c : CatalogClient) (o : Outcomes) : Call (List Issuer) :=
  c.call (withQuery c.issuers [("tag", "issuer"), ("status", "ACTIVE")])
    (fun last => (last.decode issuersEndpoint Issuer.ofDocument?).map
      (·.filter Issuer.isOffered)) o

end CatalogClient
end CredentialSchema

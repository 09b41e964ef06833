import CredentialSchema.Text.Digits
import CredentialSchema.Url.Parser

/-!
How the catalogue service is reached: its base URL, a token and a time limit, taken from the
environment. The token has to be there; what is missing else stands at a default.
-/
namespace CredentialSchema

abbrev Environment := List (String × String)

inductive ConfigError
  | missingToken
  /-- A URL, or the name of the variable that should hold one. -/
  | invalidUrl (subject : String) (error : Url.Error)
  | invalidToken
deriving DecidableEq, Repr

def ConfigError.message : ConfigError → String
  | .missingToken => "CREDEF_CATALOG_TOKEN environment variable is required"
  | .invalidUrl subject error => "invalid URL for " ++ subject ++ ": " ++ error.message
  | .invalidToken => "API token contains characters not allowed in an HTTP header"

structure CatalogConfig where
  base : Url
  token : String
  /-- How many seconds a request may take. -/
  timeout : Nat
deriving DecidableEq, Repr

namespace CatalogConfig

def defaultBase : String := "https://catalog.credef.dev"

/-- A number of seconds: digits that fit in 64 bits, after an optional plus sign. -/
def timeout? (s : String) : Option Nat :=
  let ds := match s.toList with
    | '+' :: ds => ds
    | ds => ds
  (Text.decimal? ds).filter (· < UInt64.size)

/-- The configuration that an environment gives. A missing token goes before a bad URL. -/
def ofEnvironment (env : Environment) : Except ConfigError CatalogConfig := do
  let token ← match env.lookup "CREDEF_CATALOG_TOKEN" with
    | some token => .ok token
    | none => .error .missingToken
  let name := "CREDEF_CATALOG_URL"
  let base ← (Url.parse ((env.lookup name).getD defaultBase)).mapError (.invalidUrl name)
  let timeout := ((env.lookup "CREDEF_CATALOG_TIMEOUT_SECS").bind timeout?).getD 30
  return { base, token, timeout }

def onPort (port : UInt16) (token : String) : Except ConfigError CatalogConfig := do
  let base ← (Url.parse ("http://127.0.0.1:" ++ toString port.toNat)).mapError
    (.invalidUrl "localhost")
  return { base, token, timeout := 5 }

/-- Whether a character may stand in the value of a header: no control character but the tab. -/
def isHeaderChar (c : Char) : Bool := c == '\t' || (0x20 ≤ c.toNat && c.toNat != 0x7f)

def authorization (c : CatalogConfig) : Except ConfigError String :=
  if c.token.toList.all isHeaderChar then .ok ("Bearer " ++ c.token) else .error .invalidToken

end CatalogConfig
end CredentialSchema

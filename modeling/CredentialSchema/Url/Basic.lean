import CredentialSchema.Url.Host

/-!
URLs as values: scheme, authority, path, query and fragment, with one written form. A path is
either a list of segments or, for a scheme followed by no slash, a single text to which
nothing can be added.
-/
namespace CredentialSchema

namespace Url

/-- Who and where: the part between the double slash and the path. -/
structure Authority where
  username : String := ""
  password : String := ""
  host : Option Host
  port : Option Nat := none
deriving DecidableEq, Repr

inductive Path
  /-- A text without structure. -/
  | single (text : String)
  /-- Segments, each after a slash. -/
  | segments (ss : List String)
deriving DecidableEq, Repr

end Url

structure Url where
  scheme : String
  authority : Option Url.Authority
  path : Url.Path
  query : Option String := none
  fragment : Option String := none
deriving DecidableEq, Repr

namespace Url

def specialSchemes : List (String × Option Nat) :=
  [("http", some 80), ("https", some 443), ("ws", some 80), ("wss", some 443), ("ftp", some 21),
    ("file", none)]

def isSpecialScheme (scheme : String) : Bool := (specialSchemes.lookup scheme).isSome

def isSpecial (u : Url) : Bool := isSpecialScheme u.scheme

def isFile (u : Url) : Bool := u.scheme == "file"

def Authority.credentials (a : Authority) : String :=
  if a.username.isEmpty && a.password.isEmpty then ""
  else a.username ++ (if a.password.isEmpty then "" else ":" ++ a.password) ++ "@"

def Authority.text (a : Authority) : String :=
  a.credentials ++ (a.host.map Host.text).getD "" ++ (a.port.map fun p => ":" ++ toString p).getD ""

def Path.text : Path → String
  | .single t => t
  | .segments ss => "".intercalate (ss.map ("/" ++ ·))

def queryText (u : Url) : String := (u.query.map ("?" ++ ·)).getD ""

/-- The written form. A path that would be taken for an authority is kept apart by a dot. -/
def text (u : Url) : String :=
  let start := match u.authority, u.path with
    | some a, _ => "//" ++ a.text
    | none, .segments ("" :: _ :: _) => "/."
    | none, _ => ""
  u.scheme ++ ":" ++ start ++ u.path.text ++ u.queryText ++ (u.fragment.map ("#" ++ ·)).getD ""

def origin (u : Url) : String × Option Host × Option Nat :=
  (u.scheme, u.authority.bind Authority.host, u.authority.bind Authority.port)

def target (u : Url) : String := u.path.text ++ u.queryText

end Url
end CredentialSchema

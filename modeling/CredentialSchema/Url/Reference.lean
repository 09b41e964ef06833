import CredentialSchema.Url.Parser

/-!
References, which name a resource in full or relative to another. A reference has up to five
parts, and resolving it takes from a base the parts before the first of its own. Where an
address for a request is mended, a reference with a character outside the generic syntax is
refused. Escapes have one form each, so references compare by their parts.
-/
namespace CredentialSchema.Url

/-- The parts of a reference; all but the path may be missing. -/
structure Reference where
  scheme : Option String
  authority : Option String
  path : String
  query : Option String
  fragment : Option String
deriving DecidableEq, Repr

namespace Reference

def isUnreserved (c : Char) : Bool := c.isAlphanum || "-._~".toList.contains c

def isDivider (c : Char) : Bool := "!$&'()*+,;=".toList.contains c

def isPathChar (c : Char) : Bool := isDivider c || ":@/".toList.contains c

def isQueryChar (c : Char) : Bool := isPathChar c || c == '?'

/-- A part in its one form: an escape of a character that needs none is undone, any other is
written in upper case. Besides escapes a part has characters that need none and those of a set. -/
def part? (allowed : Char → Bool) : List Char → Option (List Char)
  | [] => some []
  | '%' :: a :: b :: cs => do
    let n := 16 * (← Text.hexDigit? a) + (← Text.hexDigit? b)
    let c := Char.ofNat n
    let rest ← part? allowed cs
    return (if isUnreserved c then [c] else Percent.encodeByte (UInt8.ofNat n)) ++ rest
  | c :: cs => if isUnreserved c || allowed c then (part? allowed cs).map (c :: ·) else none

/-- A host in lower case; in brackets it is an address of eight pieces. -/
def host? (cs : List Char) : Option (List Char) :=
  if cs.head? = some '[' then
    if cs.getLast? = some ']' then
      (Host.ipv6? (cs.drop 1).dropLast).map fun ps => (Host.text (.ipv6 ps)).toList
    else none
  else part? isDivider (cs.map Char.toLower)

/-- An authority in its one form: a colon without a port after it is dropped. -/
def authority? (cs : List Char) : Option String := do
  let (user, hostPort) := match splitLastAt cs with
    | some (u, h) => (some u, h)
    | none => (none, cs)
  let (host, port) := splitPort false hostPort
  let user ← user.mapM (part? fun c => isDivider c || c == ':')
  let host ← host? host
  if (port.drop 1).all Char.isDigit then
    return .ofList ((user.map (· ++ ['@'])).getD [] ++ host ++ if port.length ≤ 1 then [] else port)
  else none

/-- The segments of a path without single and double dots; a dot segment at the end leaves an
empty one behind. -/
def withoutDots (kept : List String) : List String → List String
  | [] => kept
  | s :: rest =>
    if s = "." ∨ s = ".." then
      let kept := if s = ".." then kept.dropLast else kept
      withoutDots (if rest.isEmpty then kept ++ [""] else kept) rest
    else withoutDots (kept ++ [s]) rest

/-- A reference whose path, if it starts with a slash, has no dot segments. -/
def tidied (r : Reference) : Reference :=
  match r.path.toList with
  | '/' :: cs =>
    let segments := withoutDots [] ((cs.splitOn '/').map String.ofList)
    { r with path := (Path.segments segments).text }
  | _ => r

/-- Reads a reference. Without a scheme or an authority it has no colon in its first segment,
which would end a scheme. -/
def parse? (s : String) : Option Reference := do
  let (scheme, cs) := match scheme? s.toList with
    | some (name, rest) => (some name, rest)
    | none => (none, s.toList)
  let (authority, cs) ← match cs with
    | '/' :: '/' :: rest => do
      let a ← authority? (rest.takeWhile (!endsAuthority false ·))
      pure (some a, rest.dropWhile (!endsAuthority false ·))
    | cs => pure (none, cs)
  let path ← part? isPathChar (cs.takeWhile (!endsPath ·))
  if scheme.isNone && authority.isNone && (path.takeWhile (· != '/')).contains ':' then none
  let tail := cs.dropWhile (!endsPath ·)
  let query ← match tail with
    | '?' :: q => (part? isQueryChar (q.takeWhile (· != '#'))).map some
    | _ => pure none
  let fragment ← match tail.dropWhile (· != '#') with
    | _ :: f => (part? isQueryChar f).map some
    | [] => pure none
  return ⟨scheme, authority, .ofList path, query.map .ofList, fragment.map .ofList⟩

/-- The path of a base up to its last slash, a slash if it is empty after an authority, or
nothing if it has no slash to start from. -/
def folder? (base : Reference) : Option String :=
  if base.authority.isSome && base.path.isEmpty then some "/"
  else if base.authority.isSome || base.path.toList.head? = some '/' then
    some (.ofList (base.path.toList.reverse.dropWhile (· != '/')).reverse)
  else none

def resolve? (base r : Reference) : Option Reference :=
  if r.scheme.isSome then some r.tidied
  else if r.authority.isSome then some { r with scheme := base.scheme }.tidied
  else if r.path.isEmpty then
    some { base with query := r.query <|> base.query, fragment := r.fragment }
  else
    let named := { r with scheme := base.scheme, authority := base.authority }
    if r.path.toList.head? = some '/' then some named.tidied
    else base.folder?.map fun folder => { named with path := folder ++ r.path }.tidied

end Reference
end CredentialSchema.Url

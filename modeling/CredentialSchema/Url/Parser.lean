import CredentialSchema.Url.Path

/-!
Parsing absolute URLs. Surrounding spaces and all tabs and line breaks are dropped first. A
special scheme is followed by any number of slashes, of either kind, and must have a host;
any other scheme has an authority only after a double slash.
-/
namespace CredentialSchema.Url

/-- The text without control characters and spaces at its ends, and without tabs and line
breaks. -/
def prepare (s : String) : List Char :=
  let edge (c : Char) : Bool := c.toNat ≤ 0x20
  let trimmed := ((s.toList.dropWhile edge).reverse.dropWhile edge).reverse
  trimmed.filter (!isTabOrNewline ·)

def scheme? (cs : List Char) : Option (String × List Char) :=
  let name := cs.takeWhile (· != ':')
  match name, cs.dropWhile (· != ':') with
  | c :: _, _ :: rest =>
    if c.isAlpha && name.all fun c => c.isAlphanum || c == '+' || c == '-' || c == '.' then
      some (.ofList (name.map Char.toLower), rest)
    else none
  | _, _ => none

def endsAuthority (special : Bool) (c : Char) : Bool :=
  c == '/' || c == '?' || c == '#' || (special && c == '\\')

def splitLastAt (cs : List Char) : Option (List Char × List Char) :=
  if cs.contains '@' then
    let after := (cs.reverse.takeWhile (· != '@')).reverse
    some (cs.take (cs.length - after.length - 1), after)
  else none

def splitPort (inside : Bool) : List Char → List Char × List Char
  | [] => ([], [])
  | c :: cs =>
    if c == ':' && !inside then ([], c :: cs)
    else
      let inside := if c == '[' then true else if c == ']' then false else inside
      let (l, r) := splitPort inside cs
      (c :: l, r)

/-- Reads the digits of a port up to what ends the authority; a default port is dropped. -/
def readPort (scheme : String) (cs : List Char) : Except Error (Option Nat × List Char) :=
  let ds := cs.takeWhile Char.isDigit
  let rest := cs.dropWhile Char.isDigit
  let n := Text.ofDigits 10 (ds.map fun c => c.toNat - 48)
  let value :=
    if ds.isEmpty || specialSchemes.lookup scheme == some (some n) then none else some n
  if 65535 < n || !(rest.isEmpty || rest.head? == some '\\') then .error .invalidPort
  else .ok (value, rest)

/-- Reads an authority. What it does not use goes on to the path. -/
def readAuthority (scheme : String) (cs : List Char) : Except Error (Authority × List Char) := do
  let special := isSpecialScheme scheme
  let (user, hostPort) := match splitLastAt cs with
    | some (u, h) => (u, h)
    | none => ([], cs)
  let (hostText, portText) := splitPort false hostPort
  if hostText.isEmpty && (special || !portText.isEmpty) then throw .emptyHost
  let host ← if special then Host.special hostText else Host.general hostText
  let (port, rest) ← match portText with
    | [] => pure (none, [])
    | _ :: ds => readPort scheme ds
  let username := Percent.encode Percent.userinfo (user.takeWhile (· != ':'))
  let password := Percent.encode Percent.userinfo ((user.dropWhile (· != ':')).drop 1)
  if hostText.isEmpty && !(username.isEmpty && password.isEmpty) then throw .emptyHost
  let host := if hostText.isEmpty then none else some host
  return (⟨.ofList username, .ofList password, host, port⟩, rest)

def pathParts (special : Bool) (cs : List Char) : List String :=
  let cs := if special then cs.map fun c => if c == '\\' then '/' else c else cs
  (cs.splitOn '/').map fun part => .ofList (Percent.encode Percent.path part)

def dropSlash (special : Bool) : List Char → List Char
  | '/' :: cs => cs
  | '\\' :: cs => if special then cs else '\\' :: cs
  | cs => cs

def endsPath (c : Char) : Bool := c == '?' || c == '#'

def complete (u : Url) (cs : List Char) : Url :=
  let special := u.isSpecial
  let query := match cs with
    | '?' :: r => some (.ofList (Percent.encode (Percent.query special) (r.takeWhile (· != '#'))))
    | _ => none
  let fragment := match cs.dropWhile (· != '#') with
    | _ :: r => some (.ofList (Percent.encode Percent.fragment r))
    | [] => none
  { u with query, fragment }

def withPath (u : Url) (cs : List Char) : Url :=
  let text := cs.takeWhile (!endsPath ·)
  let segments :=
    if text.isEmpty && !u.isSpecial then []
    else tidy u.isFile (arriveAll u.isFile [] (pathParts u.isSpecial (dropSlash u.isSpecial text)))
  ({ u with path := .segments segments }).complete (cs.dropWhile (!endsPath ·))

def afterSlashes (scheme : String) (cs : List Char) : Except Error Url := do
  let special := isSpecialScheme scheme
  let (a, rest) ← readAuthority scheme (cs.takeWhile (!endsAuthority special ·))
  return withPath ⟨scheme, some a, .segments [], none, none⟩
    (rest ++ cs.dropWhile (!endsAuthority special ·))

def startsWithDrive : Path → Bool
  | .segments (s :: _) => isDriveLetter s
  | _ => false

/-- A file URL, after the colon. The host may be empty or missing; `localhost` is no host, and
a path that begins with a drive has none. -/
def fileUrl (cs : List Char) : Except Error Url := do
  let slash (c : Char) : Bool := c == '/' || c == '\\'
  let ofHost (h : Option Host) (rest : List Char) : Url :=
    let u := withPath ⟨"file", some { host := h }, .segments [], none, none⟩ rest
    if startsWithDrive u.path then { u with authority := some { host := none } } else u
  match cs with
  | a :: b :: rest =>
    if slash a && slash b then
      let hostText := rest.takeWhile (!endsAuthority true ·)
      let path := rest.dropWhile (!endsAuthority true ·)
      if hostText.isEmpty then return ofHost none path
      else if isDriveLetter (.ofList hostText) then return ofHost none rest
      else
        let host ← Host.special hostText
        return ofHost (if host = .domain "localhost" then none else some host) path
    else return ofHost none cs
  | _ => return ofHost none cs

def parse (s : String) : Except Error Url :=
  match scheme? (prepare s) with
  | none => .error .relativeWithoutBase
  | some (scheme, cs) =>
    if scheme = "file" then fileUrl cs
    else if isSpecialScheme scheme then
      afterSlashes scheme (cs.dropWhile fun c => c == '/' || c == '\\')
    else match cs with
    | '/' :: '/' :: rest => afterSlashes scheme rest
    | '/' :: _ => .ok (withPath ⟨scheme, none, .segments [], none, none⟩ cs)
    | _ =>
      let path := .ofList (Percent.encode Percent.control (cs.takeWhile (!endsPath ·)))
      .ok (complete ⟨scheme, none, .single path, none, none⟩ (cs.dropWhile (!endsPath ·)))

end CredentialSchema.Url

import CredentialSchema.Url.Basic

/-!
Paths of segments. Dot segments are resolved when a segment arrives: a single dot adds
nothing, a double dot takes the last segment away, and at the end of a path both leave an
empty segment, hence a closing slash.
-/
namespace CredentialSchema.Url

/-- The ASCII tab and line breaks, which are dropped wherever they stand. -/
def isTabOrNewline (c : Char) : Bool := c == '\t' || c == '\n' || c == '\r'

def isSingleDot (s : String) : Bool := [".", "%2e", "%2E"].contains s

def isDoubleDot (s : String) : Bool :=
  ["..", "%2e%2e", "%2e%2E", "%2E%2e", "%2E%2E", "%2e.", "%2E.", ".%2e", ".%2E"].contains s

/-- A letter with a colon or a bar, the name of a drive. -/
def isDriveLetter (s : String) : Bool :=
  match s.toList with
  | [a, b] => a.isAlpha && (b == ':' || b == '|')
  | _ => false

/-- A drive as the first segment of a file path is written with a colon. -/
def driveSegment (s : String) : String :=
  if isDriveLetter s then .ofList (s.toList.take 1 ++ [':']) else s

/-- Takes the last segment away; a drive is never taken. -/
def shorten (ss : List String) : List String :=
  match ss.getLast? with
  | some s => if isDriveLetter s then ss else ss.dropLast
  | none => ss

/-- Adds one arriving segment, which closes the path if it is the last. -/
def arrive (file last : Bool) (ss : List String) (s : String) : List String :=
  if isDoubleDot s then
    let ss := shorten ss
    if last then ss ++ [""] else ss
  else if isSingleDot s then if last then ss ++ [""] else ss
  else ss ++ [if file && ss.isEmpty then driveSegment s else s]

def arriveAll (file : Bool) (ss : List String) : List String → List String
  | [] => ss
  | [s] => arrive file true ss s
  | s :: rest => arriveAll file (arrive file false ss s) rest

/-- A file path has no empty segments at its head. -/
def tidy (file : Bool) (ss : List String) : List String :=
  if file then
    match ss.dropWhile String.isEmpty with
    | [] => [""]
    | ss => ss
  else ss

/-- Adds one segment of text, encoded, to a path. A lone slash is replaced; any other closing
slash is kept and leaves an empty segment behind. -/
def pushSegment (special file : Bool) (ss : List String) (s : String) : List String :=
  let start := if ss = [""] then [] else ss
  let encoded := Percent.encode (Percent.segment special) (s.toList.filter (!isTabOrNewline ·))
  tidy file (arrive file true start (.ofList encoded))

/-- Drops one closing slash, unless the path is nothing else. -/
def popIfEmpty (ss : List String) : List String :=
  if 2 ≤ ss.length ∧ ss.getLast? = some "" then ss.dropLast else ss

/-- Adds segments of text at the end of the path; a segment that is exactly a dot or a double
dot is passed over. A path without structure takes none. -/
def extend? (u : Url) (segments : List String) : Option Url :=
  match u.path with
  | .single _ => none
  | .segments ss =>
    let kept := segments.filter fun s => s != "." && s != ".."
    some { u with
      path := .segments (kept.foldl (pushSegment u.isSpecial u.isFile) (popIfEmpty ss)) }

/-- The URL of a resource given by plain segments below this one, which counts as a directory
whether or not it ends in a slash. -/
def resource (u : Url) (segments : List String) : Except Error Url :=
  match u.path with
  | .single _ => .error .relativeWithOpaqueBase
  | .segments ss =>
    let directory := if ss.getLast? = some "" then ss.dropLast else ss
    .ok { u with path := .segments (directory ++ segments), query := none, fragment := none }

end CredentialSchema.Url

/-!
A directory of text files. Paths are read from the directory step by step: an empty step or a
single dot stays, a double dot goes back, and only a folder can be stepped through. Writing
changes one file and nothing else.
-/
namespace CredentialSchema

/-- The steps of a path in normal form, from the directory or from the root. -/
abbrev Place := List String

structure Files where
  entries : List (Place × String) := []
  /-- The folders made here, beside those that files stand in. -/
  folders : List Place := []
deriving DecidableEq, Repr, Inhabited

namespace Files

def get? (f : Files) (p : Place) : Option String := f.entries.lookup p

def isFolder (f : Files) (p : Place) : Bool :=
  p.all (· == "..") || p == ["/"] ||
    f.entries.any (fun e => p.isPrefixOf e.1 && p.length < e.1.length) ||
    f.folders.any p.isPrefixOf

def steps (path : String) : Place × List String :=
  let ss := (path.toList.splitOn '/').map String.ofList
  if path.toList.head? = some '/' then (["/"], ss) else ([], ss)

def back (p : Place) : Place :=
  match p.getLast? with
  | none => [".."]
  | some s => if s == ".." then p ++ [".."] else if s == "/" then p else p.dropLast

/-- Takes the steps of a path, each from a place that `isOpen` admits. -/
def walk (isOpen : Place → Bool) : List String → Place → Option Place
  | [], p => some p
  | s :: ss, p =>
    if isOpen p then
      walk isOpen ss (if s == "" || s == "." then p else if s == ".." then back p else p ++ [s])
    else none

def locate? (f : Files) (path : String) : Option Place :=
  let (start, ss) := steps path
  walk f.isFolder ss start

def contains (f : Files) (path : String) : Bool :=
  (f.locate? path).any fun p => (f.get? p).isSome || f.isFolder p

def read? (f : Files) (path : String) : Option String := (f.locate? path).bind f.get?

def put (f : Files) (p : Place) (content : String) : Files :=
  if (f.get? p).isSome then
    { f with entries := f.entries.map fun e => if e.1 == p then (p, content) else e }
  else { f with entries := f.entries ++ [(p, content)] }

/-- Writes the file at a path, which has to lead into a folder and not to one. -/
def write? (f : Files) (path content : String) : Option Files :=
  (f.locate? path).bind fun p => if f.isFolder p then none else some (f.put p content)

/-- Makes the folder that a path names, with all folders on the way. -/
def makeFolder? (f : Files) (path : String) : Option Files :=
  let (start, ss) := steps path
  (walk (fun p => (f.get? p).isNone) (ss ++ ["."]) start).map fun p =>
    if f.isFolder p then f else { f with folders := f.folders ++ [p] }

end Files

namespace FilePath

def trimEnd (steps : List String) : List String :=
  (steps.reverse.dropWhile fun s => s == "" || s == ".").reverse

def written (path : String) : List String := (path.toList.splitOn '/').map String.ofList

def name? (path : String) : Option String :=
  (trimEnd (written path)).getLast?.filter (· != "..")

def parent? (path : String) : Option String :=
  let ss := (trimEnd (written path)).dropLast
  let kept := match ss with
    | "." :: rest => if (trimEnd rest).isEmpty then ["."] else "." :: trimEnd rest
    | ss => trimEnd ss
  let text := "/".intercalate kept
  if text.isEmpty then if path.toList.head? = some '/' then some "/" else none else some text

/-- What follows the last dot of a file's name; a dot at its start does not count. -/
def extension? (path : String) : Option String :=
  (name? path).bind fun name =>
    match name.toList.reverse.dropWhile (· != '.') with
    | _ :: before =>
      if before.isEmpty then none
      else some (.ofList (name.toList.reverse.takeWhile (· != '.')).reverse)
    | [] => none

end FilePath
end CredentialSchema

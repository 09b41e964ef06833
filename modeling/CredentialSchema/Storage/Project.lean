import CredentialSchema.Json.Reader
import CredentialSchema.Json.Writer
import CredentialSchema.Project.Basic
import CredentialSchema.Storage.Files
import CredentialSchema.Yaml.Reader
import CredentialSchema.Yaml.Writer

/-!
Project files. A file is YAML if its extension says so and JSON otherwise, for reading and for
writing. A failure is told as a chain of causes, from what was attempted to what went wrong.
-/
namespace CredentialSchema

inductive Cause
  | message (text : String)
  /-- A text is not JSON, or not of the form asked for. -/
  | json
  /-- The same of YAML. -/
  | yaml
  /-- A file could not be read or written. -/
  | io
  /-- A request got no answer, or one that could not be read. -/
  | http
deriving DecidableEq, Repr

inductive FileFormat
  | json
  | yaml
deriving DecidableEq, Repr

namespace FileFormat

def ofPath (path : String) : FileFormat :=
  match (FilePath.extension? path).map fun e => e.toList.map Char.toLower with
  | some ['y', 'a', 'm', 'l'] => .yaml
  | some ['y', 'm', 'l'] => .yaml
  | _ => .json

def text : FileFormat → String
  | .json => "JSON"
  | .yaml => "YAML"

def cause : FileFormat → Cause
  | .json => .json
  | .yaml => .yaml

def read? : FileFormat → String → Option Document
  | .json => Json.read?
  | .yaml => Yaml.read?

def write (p : Project) : FileFormat → String
  | .json => p.toJson.pretty ++ "\n"
  | .yaml => Yaml.write p.toDocument

end FileFormat

namespace Files

/-- Reads a file and loads what it holds; `what` names it in an error. -/
def load (f : Files) (what path : String) (load : Document → Option α) :
    Except (List Cause) α :=
  match f.read? path with
  | none => .error [.message ("failed to read " ++ what ++ " file: " ++ path), .io]
  | some text =>
    let format := FileFormat.ofPath path
    match (format.read? text).bind load with
    | some a => .ok a
    | none =>
      .error [.message ("failed to parse " ++ what ++ " " ++ format.text ++ ": " ++ path),
        format.cause]

def loadProject (f : Files) (path : String) : Except (List Cause) Project :=
  f.load "project" path fun d => (Project.load d).toOption

def makeParent (f : Files) (path : String) : Except (List Cause) Files :=
  match FilePath.parent? path with
  | none => .ok f
  | some parent =>
    match f.makeFolder? parent with
    | some f => .ok f
    | none => .error [.message ("failed to create directory: " ++ parent), .io]

/-- Writes a project file in a folder that is there, in place of any before. -/
def writeProject (f : Files) (path : String) (p : Project) : Except (List Cause) Files :=
  match f.write? path ((FileFormat.ofPath path).write p) with
  | some f => .ok f
  | none => .error [.message ("failed to write project file: " ++ path), .io]

/-- Writes a project file, in place of any that is there; folders on the way are made. -/
def saveProject (f : Files) (path : String) (p : Project) : Except (List Cause) Files :=
  (f.makeParent path).bind fun f => f.writeProject path p

end Files
end CredentialSchema

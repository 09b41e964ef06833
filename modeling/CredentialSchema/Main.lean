import CredentialSchema.Command.Line
import CredentialSchema.Pattern.Validity

/-!
The program. It reads the files that a command names, runs the command, prints what it printed
and writes the files that it changed. There is no transport here, so that every attempt to
reach the catalogue is lost.
-/
namespace CredentialSchema.Program

def variableNames : List String :=
  ["CREDEF_CATALOG_TOKEN", "CREDEF_CATALOG_URL", "CREDEF_CATALOG_TIMEOUT_SECS",
    "CREDEF_CONTEXT_BASE_URL", "CREDEF_VOCABULARY_BASE_URL"]

def environment : IO Environment :=
  variableNames.filterMapM fun name => return (← IO.getEnv name).map (name, ·)

def isThere (path : String) : IO Bool := do
  try
    let _ ← IO.FS.realPath path
    return true
  catch _ => return false

def contentOf? (path : String) : IO (Option String) := do
  try return some (← IO.FS.readFile path)
  catch _ => return none

/-- Where a path leads if every step of it can be taken. -/
def placeOf? (path : String) : Option Place :=
  let (start, ss) := Files.steps path
  Files.walk (fun _ => true) ss start

def addPath (f : Files) (path : String) : IO Files := do
  match placeOf? path, ← contentOf? path with
  | some p, some text => return f.put p text
  | some p, none => return if ← isThere path then { f with folders := p :: f.folders } else f
  | none, _ => return f

def filesFor (c : Command) : IO Files :=
  c.paths.foldlM (fun f path => do
    let f ← match FilePath.parent? path with
      | some parent => addPath f parent
      | none => pure f
    addPath f path) {}

def writeBack (paths : List String) (before after : Files) : IO Unit :=
  for path in paths do
    match (placeOf? path).bind after.get? with
    | none => pure ()
    | some text =>
      if (placeOf? path).bind before.get? != some text then
        if let some parent := FilePath.parent? path then IO.FS.createDirAll parent
        IO.FS.writeFile path text

def randomSource : IO IdSource := do
  let bytes ← IO.getRandomBytes 16
  let start := bytes.toList.foldl (fun n b => 256 * n + b.toNat) 0
  return ⟨.numbered, start⟩

def causeText : Cause → String
  | .message t => t
  | .json => "invalid JSON"
  | .yaml => "invalid YAML"
  | .io => "file system error"
  | .http => "no answer from the server"

def runCommand (c : Command) : IO UInt32 := do
  let files ← filesFor c
  let e := c.run {
    files
    environment := ← environment
    outcomes := fun _ => .lost
    isPattern := Pattern.isValid
    source := ← randomSource }
  IO.print e.out
  IO.eprint e.err
  unless e.causes.isEmpty do IO.eprintln (": ".intercalate (e.causes.map causeText))
  writeBack c.paths files e.world.files
  return e.code.toUInt32

end CredentialSchema.Program

open CredentialSchema in
def main (words : List String) : IO UInt32 :=
  match CommandLine.parse? words with
  | none => do
    IO.eprintln "usage: credef [-v] (new | compile | context-url | import | issuers) ..."
    return 2
  | some (.help _) => do
    IO.println "usage: credef [-v] (new | compile | context-url | import | issuers) ..."
    return 0
  | some (.version _) => do
    IO.println CommandLine.versionText
    return 0
  | some (.command _ c) => Program.runCommand c

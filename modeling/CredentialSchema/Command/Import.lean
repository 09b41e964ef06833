import CredentialSchema.Command.World
import CredentialSchema.Session.Basic

/-!
The command that imports candidates into a project, from a file or from the catalogue. The
project file is written only after the import was applied, and not in a dry run.
-/
namespace CredentialSchema

inductive CandidateOrigin
  | file (path : String)
  /-- The entries that the catalogue lists under a classification. -/
  | catalog (classification : String)
deriving DecidableEq, Repr

structure ImportCommand where
  project : String
  origin : CandidateOrigin
  /-- The object to import under, if not the top level. -/
  parent : Option PropertyId := none
  dryRun : Bool := false
deriving DecidableEq, Repr

namespace ImportCommand

abbrev Applied := ImportOutcome × Session × IdSource

def fromFile (c : ImportCommand) (w : World) (s : Session) (path : String) :
    Except (List Cause) Applied := do
  let candidates ← w.files.load "candidates" path Candidate.listOfFile?
  let (k, s) := s.beginImport c.parent
  (s.completeImport k candidates w.source).mapError fun v => [.message v.message]

def fromCatalog (c : ImportCommand) (w : World) (s : Session) (classification : String) :
    Except (List Cause) Applied := do
  let client ← w.client
  let call := client.listEntries classification w.outcomes
  let failed := Cause.message ("import of classification '" ++ classification ++ "' failed")
  let fetched := call.result.map fun entries => entries.map CatalogEntry.candidate
  match (s.importFrom c.parent fetched w.source).1 with
  | .error e => .error (failed :: .message (Session.fetchFailedMessage e.message) :: e.causes)
  | .ok applied => applied.mapError fun v => [failed, .message v.message]

def apply (c : ImportCommand) (w : World) (p : Project) : Except (List Cause) Applied :=
  match c.origin with
  | .file path => c.fromFile w (.start p) path
  | .catalog classification => c.fromCatalog w (.start p) classification

def reasonText : SkipReason → String
  | .alreadyImported => "already imported"
  | .nameTaken => "name taken"

def reportText (t : Tree) (r : ImportReport) : String :=
  let count := r.imported.length
  let imported := r.imported.filterMap fun id => (t.find? id).map fun p =>
    "  + " ++ p.name ++ " (" ++ p.kind.text ++ ") " ++ id.text ++ "\n"
  let skipped := r.skipped.map fun s =>
    "  = " ++ s.name ++ " (" ++ reasonText s.reason ++ ", existing " ++ s.existing.text ++ ")\n"
  "Imported " ++ toString count ++ " propert" ++ (if count = 1 then "y" else "ies") ++
    ", skipped " ++ toString r.skipped.length ++ "\n" ++ "".intercalate (imported ++ skipped)

def run (c : ImportCommand) (w : World) : Ending :=
  w.attempt (w.files.loadProject c.project) fun p =>
  w.attempt (c.apply w p) fun (outcome, s, source) =>
  match outcome with
  | .applied report =>
    let out := reportText s.tree report
    if c.dryRun then
      { out := out ++ "Dry run: " ++ c.project ++ " not modified\n", world := { w with source } }
    else match w.files.saveProject c.project s.project with
      | .ok files => { out, world := { w with files, source } }
      | .error causes => { w with source }.fail causes out
  | .targetMissing =>
    { code := 1
      err := "parent property not found in " ++ c.project ++ ": " ++
        (c.parent.map PropertyId.text).getD "" ++ "\n"
      world := w }
  | .stale => w.fail [.message "import was superseded before it completed"]

end ImportCommand
end CredentialSchema

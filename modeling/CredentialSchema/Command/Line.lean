import CredentialSchema.Command.Arguments
import CredentialSchema.Command.Compile
import CredentialSchema.Command.ContextUrl
import CredentialSchema.Command.Import
import CredentialSchema.Command.Issuers
import CredentialSchema.Command.New

/-!
The command line: a command with its operands and options. A line that is none of the forms
below asks for nothing and is a usage error.
-/
namespace CredentialSchema

inductive Command
  | new (c : NewCommand)
  | compile (c : CompileCommand)
  | contextUrl (c : ContextUrlCommand)
  | importCandidates (c : ImportCommand)
  | issuers (c : IssuersCommand)
deriving DecidableEq, Repr

def Command.run : Command → World → Ending
  | .new c => c.run
  | .compile c => c.run
  | .contextUrl c => c.run
  | .importCandidates c => c.run
  | .issuers c => c.run

def Command.paths : Command → List String
  | .new c => [c.path]
  | .compile c => c.project :: c.target.toList
  | .contextUrl c => c.project.toList
  | .importCandidates c => c.project :: match c.origin with
    | .file path => [path]
    | .catalog _ => []
  | .issuers _ => []

inductive Invocation
  | command (verbosity : Nat) (c : Command)
  | version (verbosity : Nat)
  | help (verbosity : Nat)
deriving DecidableEq, Repr

namespace CommandLine

def versionText : String := "credef 0.1.0"

def sharedSpecs : List OptionSpec := [⟨"verbose", some 'v', false⟩, ⟨"help", some 'h', false⟩]

def valued (name : String) : OptionSpec := { long := name }

def plain (name : String) : OptionSpec := { long := name, takesValue := false }

def specs : List (String × List OptionSpec) := [
  ("new", [valued "title", valued "description", valued "mode", valued "category",
    valued "credential-name", plain "strict", plain "force"]),
  ("compile", [valued "mode", ⟨"out", some 'o', true⟩, plain "deny-warnings",
    valued "context-base", valued "vocabulary-base"]),
  ("context-url", [valued "project", valued "title", valued "category",
    valued "credential-name", valued "context-base"]),
  ("import", [valued "candidates", valued "classification", valued "parent", plain "dry-run"]),
  ("issuers", [plain "json"])]

def path? (s : String) : Option String := if s.isEmpty then none else some s

def read? (a : Arguments) (name : String) (rule : String → Option α) : Option (Option α) :=
  match a.value? name with
  | none => some none
  | some s => (rule s).map some

def operand? (a : Arguments) : Option String :=
  match a.operands with
  | [s] => path? s
  | _ => none

def new? (a : Arguments) : Option Command := do
  return .new {
    path := ← operand? a
    title := ← a.value? "title"
    description := a.value? "description"
    mode := (← read? a "mode" Mode.ofText?).getD .schema
    category := a.value? "category"
    credentialName := a.value? "credential-name"
    strict := a.flag "strict"
    force := a.flag "force" }

def compile? (a : Arguments) : Option Command := do
  return .compile {
    project := ← operand? a
    mode := ← read? a "mode" Mode.ofText?
    target := ← read? a "out" path?
    denyWarnings := a.flag "deny-warnings"
    contextBase := a.value? "context-base"
    vocabularyBase := a.value? "vocabulary-base" }

/-- The command that derives a context URL: from a project or from parts, not from both. -/
def contextUrl? (a : Arguments) : Option Command := do
  let project ← read? a "project" path?
  let parts := ["title", "category", "credential-name"]
  if !a.operands.isEmpty || (project.isSome && parts.any a.flag) then none else
  return .contextUrl {
    project
    title := a.value? "title"
    category := a.value? "category"
    credentialName := a.value? "credential-name"
    contextBase := a.value? "context-base" }

/-- The command that imports candidates, from exactly one origin. -/
def import? (a : Arguments) : Option Command := do
  let project ← operand? a
  let parent ← read? a "parent" PropertyId.parse?
  let origin ← match ← read? a "candidates" path?, a.value? "classification" with
    | some path, none => some (CandidateOrigin.file path)
    | none, some name => some (CandidateOrigin.catalog name)
    | _, _ => none
  return .importCandidates { project, origin, parent, dryRun := a.flag "dry-run" }

def issuers? (a : Arguments) : Option Command :=
  if a.operands.isEmpty then some (.issuers { json := a.flag "json" }) else none

def command? (name : String) (a : Arguments) : Option Command :=
  match name with
  | "new" => new? a
  | "compile" => compile? a
  | "context-url" => contextUrl? a
  | "import" => import? a
  | "issuers" => issuers? a
  | _ => none

/-- Whether help is asked for before anything is out of place. -/
def asksFor (name : String) (ps : List Arguments.Part) : Bool :=
  (ps.takeWhile (· != .misplaced)).contains (.option name none)

/-- How many words stand before the name of a command: the shared options. -/
def leading (words : List String) : List String := words.takeWhile Arguments.isHyphenated

def parse? (words : List String) : Option Invocation := do
  let first := leading words
  let ps := Arguments.parts (⟨"version", some 'V', false⟩ :: sharedSpecs) none first
  let verbosity (ps : List Arguments.Part) : Nat :=
    (ps.filter (· == .option "verbose" none)).length
  if asksFor "help" ps then return .help (verbosity ps)
  if asksFor "version" ps then return .version (verbosity ps)
  let _ ← Arguments.ofParts? ["verbose"] ps
  if first.contains "--" then none else
  match words.drop first.length with
  | [] => none
  | name :: rest =>
    if name = "help" then return .help (verbosity ps)
    let own ← specs.lookup name
    let qs := Arguments.parts (own ++ sharedSpecs) none rest
    if asksFor "help" qs then return .help (verbosity (ps ++ qs))
    let a ← Arguments.ofParts? ["verbose"] qs
    return .command (verbosity (ps ++ qs)) (← command? name a)

end CommandLine
end CredentialSchema

/-!
Command-line words. Options have a long name and may have a short letter; a value follows its
option in the same word after an equals sign, or as the next word, which may not look like an
option then. Short letters may share a word. After two hyphens alone every word is an operand.
-/
namespace CredentialSchema

structure OptionSpec where
  long : String
  short : Option Char := none
  takesValue : Bool := true
deriving DecidableEq, Repr

namespace Arguments

inductive Part
  | operand (text : String)
  /-- An option by its long name, with its value if it takes one. -/
  | option (name : String) (value : Option String)
  /-- A word that means nothing here. -/
  | misplaced
deriving DecidableEq, Repr

/-- Whether a word looks like an option; a lone hyphen does not. -/
def isHyphenated (s : String) : Bool :=
  match s.toList with
  | '-' :: _ :: _ => true
  | _ => false

/-- What a word with two hyphens means: its parts, and the option that awaits a value. -/
def long (specs : List OptionSpec) (cs : List Char) : Part × Option String :=
  let name := String.ofList (cs.takeWhile (· != '='))
  let value := match cs.dropWhile (· != '=') with
    | _ :: v => some (String.ofList v)
    | [] => none
  match specs.find? fun s => s.long == name with
  | none => (.misplaced, none)
  | some s =>
    if s.takesValue then
      if value.isSome then (.option name value, none) else (.option name none, some name)
    else if value.isSome then (.misplaced, none) else (.option name none, none)

/-- What the letters of a word with one hyphen mean; the last option may await a value. -/
def short (specs : List OptionSpec) : List Char → List Part × Option String
  | [] => ([], none)
  | c :: cs =>
    match specs.find? fun s => s.short == some c with
    | none => ([.misplaced], none)
    | some s =>
      if s.takesValue then
        match cs with
        | [] => ([], some s.long)
        | '=' :: v => ([.option s.long (some (.ofList v))], none)
        | v => ([.option s.long (some (.ofList v))], none)
      else
        let (parts, awaiting) := short specs cs
        (.option s.long none :: parts, awaiting)

def word (specs : List OptionSpec) (s : String) : List Part × Option String :=
  match s.toList with
  | '-' :: '-' :: cs =>
    match long specs cs with
    | (_, some name) => ([], some name)
    | (part, none) => ([part], none)
  | _ :: cs => short specs cs
  | [] => ([], none)

/-- What words mean; nothing after a misplaced one is looked at. An option may await its value
from the word before. -/
def parts (specs : List OptionSpec) : (awaiting : Option String) → List String → List Part
  | none, [] => []
  | some _, [] => [.misplaced]
  | some name, s :: rest =>
    if isHyphenated s then [.misplaced] else .option name (some s) :: parts specs none rest
  | none, s :: rest =>
    if s == "--" then rest.map .operand
    else if isHyphenated s then
      let (ps, awaiting) := word specs s
      if ps.contains .misplaced then ps else ps ++ parts specs awaiting rest
    else .operand s :: parts specs none rest

end Arguments

structure Arguments where
  operands : List String
  options : List (String × Option String)
deriving DecidableEq, Repr

namespace Arguments

def flag (a : Arguments) (name : String) : Bool := a.options.any (·.1 == name)

def value? (a : Arguments) (name : String) : Option String := (a.options.lookup name).join

def count (a : Arguments) (name : String) : Nat := (a.options.filter (·.1 == name)).length

/-- The sorted words, if none is misplaced and no option but those of `repeatable` comes
twice. -/
def ofParts? (repeatable : List String) (ps : List Part) : Option Arguments :=
  let options := ps.filterMap fun
    | .option name value => some (name, value)
    | _ => none
  let once := (options.map (·.1)).filter fun name => !repeatable.contains name
  if ps.contains .misplaced || !once.Nodup then none
  else
    let operands := ps.filterMap fun
      | .operand s => some s
      | _ => none
    some ⟨operands, options⟩

end Arguments
end CredentialSchema

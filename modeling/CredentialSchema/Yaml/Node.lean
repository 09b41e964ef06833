import CredentialSchema.Yaml.Token

/-!
Nodes: the structure that tokens spell. Block collections are delimited by the tokens that
indentation gave, flow collections by their brackets; a missing key or value is an empty plain
scalar.
-/
namespace CredentialSchema.Yaml

/-- What stands before a node: its name for aliases and its tag. -/
structure Properties where
  anchor : Option String := none
  tag : Option String := none
deriving DecidableEq, Repr

inductive Node
  | alias (name : String)
  | scalar (p : Properties) (how : Presentation) (text : String)
  | sequence (p : Properties) (items : List Node)
  | mapping (p : Properties) (members : List (Node × Node))
deriving Repr, Inhabited

namespace Node

def missing (p : Properties := {}) : Node := .scalar p .unquoted ""

/-- The handles that stand for a start of tags: those that every document has and its own. -/
abbrev Handles := List (String × String)

def defaultHandles : Handles := [("!", "!"), ("!!", "tag:yaml.org,2002:")]

def resolveTag? (handles : Handles) (t : Tag) : Option String :=
  if t.handle.isEmpty then some t.suffix
  else (handles.lookup t.handle).map (· ++ t.suffix)

/-- An anchor and a tag, each at most once and in either order. -/
def properties? (handles : Handles) (ts : List Token) : Option (Properties × List Token) :=
  match ts with
  | .anchor a :: .tag t :: ts => (resolveTag? handles t).map fun t => (⟨some a, some t⟩, ts)
  | .tag t :: .anchor a :: ts => (resolveTag? handles t).map fun t => (⟨some a, some t⟩, ts)
  | .anchor a :: ts => some (⟨some a, none⟩, ts)
  | .tag t :: ts => (resolveTag? handles t).map fun t => (⟨none, some t⟩, ts)
  | ts => some ({}, ts)

/-- Whether a node is missing between a mark and the next token, given what may end it there. -/
def isMissing (ends : List Token) (ts : List Token) : Bool := ts.head?.any ends.contains

mutual
/-- A node. In block layout a list may stand at the indentation of the key before it. -/
def read? (handles : Handles) (fuel : Nat) (inBlock : Bool) (mayBeIndentless : Bool)
    (ts : List Token) : Option (Node × List Token) :=
  match fuel with
  | 0 => none
  | fuel + 1 =>
    match ts with
    | .alias a :: ts => some (.alias a, ts)
    | _ => do
      let (p, ts) ← properties? handles ts
      match ts with
      | .item :: _ =>
        if mayBeIndentless then
          let (ns, ts) ← items? handles fuel true ts
          return (.sequence p ns, ts)
        else if p = {} then none else return (missing p, ts)
      | .scalar how text :: ts => return (.scalar p how text, ts)
      | .flowSequenceStart :: ts =>
        let (ns, ts) ← flowItems? handles fuel true ts
        return (.sequence p ns, ts)
      | .flowMappingStart :: ts =>
        let (ms, ts) ← flowMembers? handles fuel true ts
        return (.mapping p ms, ts)
      | .sequenceStart :: rest =>
        if inBlock then
          let (ns, ts) ← items? handles fuel false rest
          return (.sequence p ns, ts)
        else if p = {} then none else return (missing p, ts)
      | .mappingStart :: rest =>
        if inBlock then
          let (ms, ts) ← members? handles fuel rest
          return (.mapping p ms, ts)
        else if p = {} then none else return (missing p, ts)
      | ts => if p = {} then none else return (missing p, ts)

/-- The items of a block list, with the token that closes it if indentation opened it. -/
def items? (handles : Handles) (fuel : Nat) (isIndentless : Bool) (ts : List Token) :
    Option (List Node × List Token) :=
  match fuel with
  | 0 => none
  | fuel + 1 =>
    match ts with
    | .item :: ts => do
      let ends := if isIndentless then [.item, .key, .value, .blockEnd] else [.item, .blockEnd]
      let (n, ts) ← if isMissing ends ts then some (missing, ts)
        else read? handles fuel true false ts
      let (ns, ts) ← items? handles fuel isIndentless ts
      return (n :: ns, ts)
    | ts =>
      if isIndentless then some ([], ts)
      else match ts with
        | .blockEnd :: ts => some ([], ts)
        | _ => none

def members? (handles : Handles) (fuel : Nat) (ts : List Token) :
    Option (List (Node × Node) × List Token) :=
  match fuel with
  | 0 => none
  | fuel + 1 =>
    match ts with
    | .blockEnd :: ts => some ([], ts)
    | .key :: ts => do
      let (k, ts) ← if isMissing [.key, .value, .blockEnd] ts then some (missing, ts)
        else read? handles fuel true true ts
      let (v, ts) ← memberValue? handles fuel ts
      let (ms, ts) ← members? handles fuel ts
      return ((k, v) :: ms, ts)
    | _ => none

def memberValue? (handles : Handles) (fuel : Nat) (ts : List Token) :
    Option (Node × List Token) :=
  match fuel with
  | 0 => none
  | fuel + 1 =>
    match ts with
    | .value :: ts =>
      if isMissing [.key, .value, .blockEnd] ts then some (missing, ts)
      else read? handles fuel true true ts
    | ts => some (missing, ts)

/-- The items of a list in brackets; one with a colon or a question mark is a mapping of one
member. -/
def flowItems? (handles : Handles) (fuel : Nat) (isFirst : Bool) (ts : List Token) :
    Option (List Node × List Token) :=
  match fuel with
  | 0 => none
  | fuel + 1 =>
    match ts with
    | .flowSequenceEnd :: ts => some ([], ts)
    | ts => do
      let ts ← match isFirst, ts with
        | true, ts => some ts
        | false, .separator :: ts => some ts
        | false, _ => none
      match ts with
      | .flowSequenceEnd :: ts => return ([], ts)
      | .key :: ts =>
        let (m, ts) ← pair? handles fuel ts
        let (ns, ts) ← flowItems? handles fuel false ts
        return (.mapping {} [m] :: ns, ts)
      | ts =>
        let (n, ts) ← read? handles fuel false false ts
        let (ns, ts) ← flowItems? handles fuel false ts
        return (n :: ns, ts)

/-- The one member of a mapping that is an item in brackets. A key that is missing takes the
token after it along. -/
def pair? (handles : Handles) (fuel : Nat) (ts : List Token) :
    Option ((Node × Node) × List Token) :=
  match fuel with
  | 0 => none
  | fuel + 1 => do
    let (k, ts) ←
      if isMissing [.value, .separator, .flowSequenceEnd] ts then some (missing, ts.drop 1)
      else read? handles fuel false false ts
    match ts with
    | .value :: ts =>
      if isMissing [.separator, .flowSequenceEnd] ts then return ((k, missing), ts)
      let (v, ts) ← read? handles fuel false false ts
      return ((k, v), ts)
    | ts => return ((k, missing), ts)

def flowMembers? (handles : Handles) (fuel : Nat) (isFirst : Bool) (ts : List Token) :
    Option (List (Node × Node) × List Token) :=
  match fuel with
  | 0 => none
  | fuel + 1 =>
    match ts with
    | .flowMappingEnd :: ts => some ([], ts)
    | ts => do
      let ts ← match isFirst, ts with
        | true, ts => some ts
        | false, .separator :: ts => some ts
        | false, _ => none
      match ts with
      | .flowMappingEnd :: ts => return ([], ts)
      | .key :: ts =>
        let (k, ts) ←
          if isMissing [.value, .separator, .flowMappingEnd] ts then some (missing, ts)
          else read? handles fuel false false ts
        let (v, ts) ← match ts with
          | .value :: ts =>
            if isMissing [.separator, .flowMappingEnd] ts then some (missing, ts)
            else read? handles fuel false false ts
          | ts => some (missing, ts)
        let (ms, ts) ← flowMembers? handles fuel false ts
        return ((k, v) :: ms, ts)
      | ts =>
        let (k, ts) ← read? handles fuel false false ts
        let (ms, ts) ← flowMembers? handles fuel false ts
        return ((k, missing) :: ms, ts)
end

/-- The handles that the directives before a document declare, each once, besides the default
ones; at most one directive tells the version, which is 1.1 or 1.2. -/
def handles? (ds : List Directive) : Option Handles :=
  let versions := ds.filterMap fun
    | .version major minor => some (major, minor)
    | _ => none
  let tags := ds.filterMap fun
    | .tag handle start => some (handle, start)
    | _ => none
  if versions.length ≤ 1 && versions.all (fun v => v = (1, 1) ∨ v = (1, 2)) &&
      (tags.map (·.1)).Nodup then
    some (tags ++ defaultHandles)
  else none

def ofTokens? (ts : List Token) : Option (Option Node) := do
  let directive? : Token → Option Directive
    | .directive d => some d
    | _ => none
  let ds := (ts.takeWhile fun t => (directive? t).isSome).filterMap directive?
  let ts := ts.dropWhile fun t => (directive? t).isSome
  let handles ← handles? ds
  if ts.isEmpty && ds.isEmpty then return none
  let (isExplicit, ts) ← match ts with
    | .documentStart :: ts => some (true, ts)
    | ts => if ds.isEmpty then some (false, ts) else none
  let isEnd : Token → Bool
    | .directive _ => true
    | .documentStart => true
    | .documentEnd => true
    | _ => false
  let (n, ts) ←
    if isExplicit && ts.head?.all isEnd then some (missing, ts)
    else read? handles (4 * ts.length + 4) true false ts
  if ts.all (· == .documentEnd) then return some n else none

end Node
end CredentialSchema.Yaml

import CredentialSchema.Pattern.CharacterSet
import CredentialSchema.Unicode.Alphabetic

/-!
The plain dialect of patterns. It has groups, sets, counts, flags and places, and neither looks
around nor refers back. Reading a pattern tells how deep its parts hold each other; what it
matches does not matter here.
-/
namespace CredentialSchema.Pattern.Plain

structure Part where
  height : Nat
  /-- Whether it can be repeated. -/
  isTarget : Bool := true

def rowHeight : List Part → Nat
  | [] => 0
  | [part] => part.height
  | parts => 1 + (parts.map (·.height)).foldr max 0

structure Seen where
  /-- The names of groups. -/
  names : List String := []
  /-- Whether a bell stands outside of sets. -/
  hasBell : Bool := false

/-- What was read of the alternatives at some level: the heights of those before the last
one, and the parts of the last, newest first. -/
structure Level where
  alternatives : List Nat := []
  row : List Part := []

def Level.height (l : Level) : Nat :=
  let last := rowHeight l.row
  if l.alternatives.isEmpty then last else 1 + (l.alternatives.foldr max last)

def Level.push (l : Level) (part : Part) : Level := { l with row := part :: l.row }

def Level.repeated (l : Level) : Except Fault Level :=
  match l.row with
  | part :: row =>
    if part.isTarget then .ok { l with row := { height := 1 + part.height } :: row }
    else .error .invalid
  | [] => .error .invalid

def digits (isLoose : Bool) : (fuel : Nat) → List Char → List Char × List Char
  | fuel + 1, c :: cs =>
    if c.isDigit then
      let (ds, rest) := digits isLoose fuel (skip isLoose cs)
      (c :: ds, rest)
    else ([], c :: cs)
  | _, cs => ([], cs)

def countLimit : Nat := 4294967295

def count (isLoose : Bool) (cs : List Char) : Except Fault (Option Nat × List Char) :=
  let cs := cs.dropWhile Text.isBlank
  let (ds, rest) := digits isLoose (cs.length + 1) cs
  let rest := rest.dropWhile Text.isBlank
  match Text.decimal? ds with
  | some n => if n ≤ countLimit then .ok (some n, rest) else .error .invalid
  | none => .ok (none, rest)

def counts (isLoose : Bool) (cs : List Char) : Except Fault (List Char) := do
  let (low, rest) ← count isLoose (skip isLoose cs)
  let (low, high, rest) ← match low, rest with
    | some low, ',' :: rest =>
      match skip isLoose rest with
      | '\x7d' :: rest => pure (low, low, '\x7d' :: rest)
      | rest =>
        match ← count isLoose rest with
        | (some high, rest) => pure (low, high, rest)
        | (none, _) => throw .invalid
    | some low, rest => pure (low, low, rest)
    | none, _ => throw .invalid
  match rest with
  | '\x7d' :: rest => if low ≤ high then return skip isLoose rest else throw .invalid
  | _ => throw .invalid

def dropReluctant : List Char → List Char
  | '?' :: cs => cs
  | cs => cs

/-- Whether letters in a group are flags: of a fixed set, none repeated, and at most one minus sign,
which some letter follows. -/
def areFlags (cs : List Char) : Bool :=
  let letters := cs.filter (· != '-')
  letters.all (fun c => "imsUuRx".toList.contains c) && letters.Nodup &&
    (cs.filter (· == '-')).length ≤ 1 && cs.getLast? != some '-'

def looseAfter (isLoose : Bool) (flags : List Char) : Bool :=
  if flags.contains 'x' then (flags.takeWhile (· != '-')).contains 'x' else isLoose

def isNameChar (isFirst : Bool) (c : Char) : Bool :=
  if isFirst then c == '_' || Unicode.isAlphabetic c
  else "_.[]".toList.contains c || Unicode.isAlphanumeric c

def isName : List Char → Bool
  | c :: cs => isNameChar true c && cs.all (isNameChar false)
  | [] => false

inductive Opening
  /-- Its content follows. -/
  | content (seen : Seen) (isLoose : Bool) (rest : List Char)
  /-- It only sets flags for what follows it. -/
  | flags (isLoose : Bool) (rest : List Char)

def opening (seen : Seen) (isLoose : Bool) (cs : List Char) : Except Fault Opening :=
  let named (cs : List Char) : Except Fault Opening :=
    let name := cs.takeWhile (· != '>')
    match cs.dropWhile (· != '>') with
    | _ :: rest =>
      if isName name && !seen.names.contains (.ofList name) then
        .ok (.content { seen with names := .ofList name :: seen.names } isLoose rest)
      else .error .invalid
    | [] => .error .invalid
  match skip isLoose cs with
  | '?' :: '=' :: _ => .error .beyond
  | '?' :: '!' :: _ => .error .beyond
  | '?' :: '<' :: '=' :: _ => .error .beyond
  | '?' :: '<' :: '!' :: _ => .error .beyond
  | '?' :: 'P' :: '<' :: rest => named rest
  | '?' :: '<' :: rest => named rest
  | '?' :: rest =>
    let flags := rest.takeWhile fun c => c != ':' && c != ')'
    match rest.dropWhile fun c => c != ':' && c != ')' with
    | ':' :: after =>
      if areFlags flags then .ok (.content seen (looseAfter isLoose flags) after)
      else .error .invalid
    | ')' :: after =>
      if areFlags flags && !flags.isEmpty then .ok (.flags (looseAfter isLoose flags) after)
      else .error .invalid
    | _ => .error .invalid
  | rest => .ok (.content seen isLoose rest)

def depthLimit : Nat := 250

/-- Reads alternatives up to a closing parenthesis or the end of the pattern, and tells their
height. Groups are at most `depth` deep. -/
def body : (fuel depth : Nat) → Seen → (isLoose : Bool) → Level → List Char →
    Except Fault (Nat × Seen × List Char)
  | 0, _, _, _, _, _ => .error .invalid
  | fuel + 1, depth, seen, isLoose, level, cs =>
    let repeated (rest : List Char) := do
      body fuel depth seen isLoose (← level.repeated) (dropReluctant rest)
    let single (rest : List Char) := body fuel depth seen isLoose (level.push ⟨0, true⟩) rest
    match skip isLoose cs with
    | [] => .ok (level.height, seen, [])
    | ')' :: rest => .ok (level.height, seen, ')' :: rest)
    | '|' :: rest =>
      body fuel depth seen isLoose ⟨rowHeight level.row :: level.alternatives, []⟩ rest
    | '*' :: rest => repeated rest
    | '?' :: rest => repeated rest
    | '+' :: rest => repeated rest
    | '\x7b' :: rest => do
      let level ← level.repeated
      body fuel depth seen isLoose level (dropReluctant (← counts isLoose rest))
    | '[' :: rest => do
      let (set, rest) ← CharacterSet.read isLoose rest
      body fuel depth seen isLoose (level.push ⟨set.height, true⟩) rest
    | '\\' :: rest => do
      let (e, rest) ← escape isLoose rest
      match e with
      | .bell => body fuel depth { seen with hasBell := true } isLoose (level.push ⟨0, true⟩) rest
      | .shorthand k n =>
        body fuel depth seen isLoose (level.push ⟨(CharacterSet.shorthand k n).height, true⟩) rest
      | _ => single rest
    | '(' :: rest => do
      match ← opening seen isLoose rest with
      | .flags isLoose rest => body fuel depth seen isLoose (level.push ⟨0, false⟩) rest
      | .content seen inner rest =>
        if depth = 0 then throw .invalid
        let (height, seen, rest) ← body fuel (depth - 1) seen inner {} rest
        match rest with
        | ')' :: rest => body fuel depth seen isLoose (level.push ⟨1 + height, true⟩) rest
        | _ => throw .invalid
    | _ :: rest => single rest

inductive Outcome
  /-- It is a plain pattern. -/
  | plain
  /-- Only the extended dialect can tell. -/
  | extended
  | invalid
deriving DecidableEq, Repr

/-- Reads a pattern after writing control characters named by letters as themselves. A bell has
to be named by its code. -/
def read : (fuel : Nat) → List Char → Outcome × List Char
  | 0, cs => (.invalid, cs)
  | fuel + 1, cs =>
    match body (cs.length + 1) depthLimit {} false {} cs with
    | .ok (height, seen, []) =>
      if height ≤ depthLimit && !seen.hasBell then (.plain, cs) else (.invalid, cs)
    | .error .beyond => (.extended, cs)
    | .error (.control letter rest) =>
      let before := cs.take (cs.length - rest.length - 3)
      read fuel (before ++ .ofNat (letter.toNat % 32) :: rest)
    | _ => (.invalid, cs)

end CredentialSchema.Pattern.Plain

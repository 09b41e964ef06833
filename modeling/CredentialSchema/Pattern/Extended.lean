import CredentialSchema.Pattern.Expression
import CredentialSchema.Pattern.Plain

/-!
The extended dialect of patterns. Besides what the plain one has, it looks around, refers back to
groups, keeps the first match of a group and asks whether a group took part in the match. Flags that
are set in a group stay set after it, and a brace that opens no counts stands for itself.
-/
namespace CredentialSchema.Pattern.Extended

/-- What was read of a pattern so far, as far as the rest depends on it. -/
structure State where
  ignoresCase : Bool := false
  /-- Whether a point matches a line break too. -/
  matchesBreaks : Bool := false
  isLoose : Bool := false
  /-- The groups that have names. -/
  names : List (String × Nat) := []
  /-- How many groups were opened. -/
  groups : Nat := 0
  /-- The groups that are referred to. -/
  references : List Nat := []
  /-- Whether a group is referred to by its number. -/
  isNumbered : Bool := false

abbrev Reader := StateT State Option

inductive Gap
  | outside
  /-- In a comment up to the end of its line. -/
  | line
  /-- In a comment in parentheses. -/
  | note

/-- The rest after a gap: comments in parentheses and, in a loose pattern, blanks of ASCII and
comments to the end of a line. -/
def afterGap? (isLoose : Bool) : Gap → List Char → Option (List Char)
  | .note, [] => none
  | _, [] => some []
  | .line, c :: cs => afterGap? isLoose (if c = '\n' then .outside else .line) cs
  | .note, '\\' :: [] => none
  | .note, '\\' :: _ :: cs => afterGap? isLoose .note cs
  | .note, c :: cs => afterGap? isLoose (if c = ')' then .outside else .note) cs
  | .outside, '(' :: '?' :: '#' :: cs => afterGap? isLoose .note cs
  | .outside, c :: cs =>
    if isLoose && " \r\n\t".toList.contains c then afterGap? isLoose .outside cs
    else if isLoose && c = '#' then afterGap? isLoose .line cs
    else some (c :: cs)

def gap (cs : List Char) : Reader (List Char) := do afterGap? (← get).isLoose .outside cs

def closing (cs : List Char) : Reader (List Char) := do
  match ← gap cs with
  | ')' :: rest => return rest
  | _ => failure

def numberLimit : Nat := 18446744073709551615

def number? (cs : List Char) : Option (Nat × List Char) := do
  let n ← Text.decimal? (cs.takeWhile Char.isDigit)
  if n ≤ numberLimit then return (n, cs.dropWhile Char.isDigit) else none

/-- Counts in braces, after the opening one: the least, the greatest if there is one, and the rest
after the closing brace. The least may be left out before a comma. -/
def counts? (isLoose : Bool) (cs : List Char) : Option (Nat × Option Nat × List Char) := do
  let gap (cs : List Char) := afterGap? isLoose .outside cs
  let cs ← gap cs
  let (low, cs) ← if cs.head? = some ',' then some (0, cs) else number? cs
  match ← gap cs with
  | '\x7d' :: rest => return (low, some low, rest)
  | ',' :: rest =>
    let rest ← gap rest
    let (high, rest) := match number? rest with
      | some (n, rest) => (if n < numberLimit then some n else none, rest)
      | none => (none, rest)
    match ← gap rest with
    | '\x7d' :: rest => return (low, high, rest)
    | _ => none
  | _ => none

def isNameChar (c : Char) : Bool := c == '_' || Unicode.isAlphanumeric c

/-- A name up to a mark, with the rest after the mark. In a reference it may be a number below zero,
which counts groups back from here. -/
def name? (isReference : Bool) (mark : Char) (cs : List Char) : Option (List Char × List Char) :=
  let isPart (c : Char) : Bool := isNameChar c || (isReference && c == '-')
  match cs.takeWhile isPart, cs.dropWhile isPart with
  | [], _ => none
  | name, c :: rest => if c = mark then some (name, rest) else none
  | _, [] => none

def reference (n : Nat) : Reader Expression := do
  let s ← get
  if s.groups < n then failure
  set { s with references := n :: s.references }
  return .reference n

/-- A reference to a group by its number. The number is below half the size of the pattern. -/
def numbered (bound : Nat) (cs : List Char) : Reader (Expression × List Char) := do
  let (n, rest) ← number? cs
  if bound ≤ n then failure
  modify ({ · with isNumbered := true })
  return (← reference n, rest)

/-- A reference to a group by its name, or by a number in the place of a name. -/
def named (mark : Char) (cs : List Char) : Reader (Expression × List Char) := do
  let (name, rest) ← name? (mark != ')') mark cs
  let s ← get
  let n : Option Nat := match s.names.lookup (.ofList name), name with
    | some n, _ => some n
    | none, '-' :: back =>
      (Text.decimal? back).bind fun n => if n ≤ s.groups + 1 then some (s.groups + 1 - n) else none
    | none, name => Text.decimal? name
  return (← reference (← n), rest)

inductive Meaning
  | literal (c : Char)
  /-- A set as the plain dialect writes it in brackets. -/
  | set (text : List Char)
  | expression (e : Expression)

/-- A character by its code, in braces with at most eight digits or with a fixed number of them. -/
def hexCode (width : Nat) (cs : List Char) : Option (Char × List Char) := do
  let ds := cs.takeWhile fun c => (Text.hexDigit? c).isSome
  let (ds, rest) ← if width ≤ ds.length then some (ds.take width, cs.drop width) else
    match cs with
    | '\x7b' :: inside =>
      let ds := inside.takeWhile fun c => (Text.hexDigit? c).isSome
      match inside.dropWhile fun c => (Text.hexDigit? c).isSome with
      | '\x7d' :: rest => if ds.length ≤ 8 then some (ds, rest) else none
      | _ => none
    | _ => none
  let n ← (character? ds).toOption
  return (.ofNat n, rest)

def property? (letter : Char) (cs : List Char) : Option (List Char × List Char) :=
  match cs with
  | '\x7b' :: inside =>
    match inside.dropWhile (· != '\x7d') with
    | _ :: rest =>
      let name := inside.takeWhile (· != '\x7d')
      some ('\\' :: letter :: '\x7b' :: name ++ ['\x7d'], rest)
    | [] => none
  | c :: rest => some (['\\', letter, c], rest)
  | [] => none

/-- An escape, after its backslash; in a set places and references have no meaning. -/
def escape (bound : Nat) (isInSet : Bool) (cs : List Char) : Reader (Meaning × List Char) := do
  let place (isTried : Bool) (rest : List Char) : Reader (Meaning × List Char) :=
    return (.expression (.place isTried), rest)
  let boundary (rest : List Char) : Reader (Meaning × List Char) :=
    if rest.head? = some '\x7b' then failure else place true rest
  match cs with
  | [] => failure
  | c :: rest =>
    if c.isDigit then
      let (e, rest) ← numbered bound (c :: rest)
      return (.expression e, rest)
    match c, isInSet with
    | 'k', false =>
      match rest with
      | '<' :: rest => do
        let (e, rest) ← named '>' rest
        return (.expression e, rest)
      | '\'' :: rest => do
        let (e, rest) ← named '\'' rest
        return (.expression e, rest)
      | _ => failure
    | 'A', false => place false rest
    | 'z', false => place false rest
    | 'Z', false => return (.expression (.around false (.place false)), rest)
    | 'b', false => boundary rest
    | 'B', false => boundary rest
    | '<', false => place true rest
    | '>', false => place true rest
    | 'K', false => return (.expression .progress, rest)
    | 'G', false => return (.expression .progress, rest)
    | 'h', _ => return (.set "[0-9A-Fa-f]".toList, rest)
    | 'H', _ => return (.set "[^0-9A-Fa-f]".toList, rest)
    | 'x', _ => do
      let (c, rest) ← hexCode 2 rest
      return (.literal c, rest)
    | 'u', _ => do
      let (c, rest) ← hexCode 4 rest
      return (.literal c, rest)
    | 'U', _ => do
      let (c, rest) ← hexCode 8 rest
      return (.literal c, rest)
    | 'a', _ => return (.literal '\x07', rest)
    | 'b', true => return (.literal '\x08', rest)
    | 'f', _ => return (.literal '\x0c', rest)
    | 'n', _ => return (.literal '\n', rest)
    | 'r', _ => return (.literal '\r', rest)
    | 't', _ => return (.literal '\t', rest)
    | 'v', _ => return (.literal '\x0b', rest)
    | 'e', _ => return (.literal '\x1b', rest)
    | c, _ =>
      if "dDsSwW".toList.contains c then return (.set ['\\', c], rest)
      else if c = 'p' ∨ c = 'P' then
        let (text, rest) ← property? c rest
        return (.set text, rest)
      else if c.isAlpha then failure
      else return (.literal c, rest)

/-- The marks that a character has to be escaped among, to stand for itself in a set. -/
def isMeta (c : Char) : Bool := "\\.+*?()|[]\x7b\x7d^$#&-~".toList.contains c

/-- The body of a set as the plain dialect writes it, up to the bracket that closes the outermost
of `depth` more. -/
def setText (bound : Nat) : (fuel depth : Nat) → List Char → Reader (List Char × List Char)
  | 0, _, _ => failure
  | fuel + 1, depth, cs =>
    match cs with
    | [] => failure
    | '\\' :: rest => do
      let (m, rest) ← escape bound true rest
      let text ← match m with
        | .literal c => pure (if isMeta c then ['\\', c] else [c])
        | .set text => pure text
        | .expression _ => failure
      let (more, rest) ← setText bound fuel depth rest
      return (text ++ more, rest)
    | '[' :: rest => do
      let (more, rest) ← setText bound fuel (depth + 1) rest
      return ('[' :: more, rest)
    | ']' :: rest =>
      match depth with
      | 0 => return ([']'], rest)
      | depth + 1 => do
        let (more, rest) ← setText bound fuel depth rest
        return (']' :: more, rest)
    | c :: rest => do
      let (more, rest) ← setText bound fuel depth rest
      return (c :: more, rest)

def plainSet (text : List Char) : Reader Expression := do
  match CharacterSet.read false text with
  | .ok (s, []) => return .set s (← get).ignoresCase
  | _ => failure

/-- A set, after its bracket. A closing bracket at its start stands for itself. -/
def bracketed (bound : Nat) (cs : List Char) : Reader (Expression × List Char) := do
  let (start, cs) := if cs.head? = some '^' then (['^'], cs.drop 1) else ([], cs)
  let (start, cs) := if cs.head? = some ']' then (start ++ [']'], cs.drop 1) else (start, cs)
  let (text, rest) ← setText bound (cs.length + 1) 0 cs
  return (← plainSet (start ++ text), rest)

/-- Flags, up to a colon or a closing parenthesis; the rest starts with it. -/
def flags : (fuel : Nat) → (isFirst isOff : Bool) → List Char → Reader (List Char)
  | 0, _, _, _ => failure
  | fuel + 1, isFirst, isOff, cs => do
    match ← gap cs with
    | 'i' :: rest =>
      modify ({ · with ignoresCase := !isOff })
      flags fuel false isOff rest
    | 's' :: rest =>
      modify ({ · with matchesBreaks := !isOff })
      flags fuel false isOff rest
    | 'x' :: rest =>
      modify ({ · with isLoose := !isOff })
      flags fuel false isOff rest
    | 'm' :: rest => flags fuel false isOff rest
    | 'U' :: rest => flags fuel false isOff rest
    | 'u' :: rest => if isOff then failure else flags fuel false isOff rest
    | '-' :: rest =>
      if isOff || (isFirst && (rest.head? = some ':' || rest.head? = some ')')) then failure
      else flags fuel false true rest
    | ':' :: rest => return ':' :: rest
    | ')' :: rest => if isFirst then failure else return ')' :: rest
    | _ => failure

/-- A repetition of an expression that may have one, with the rest after it: a question mark makes
it reluctant, and a plus sign keeps its first match. -/
def quantified (e : Expression) (low : Nat) (high : Option Nat) (cs : List Char) :
    Reader (Expression × List Char) := do
  if !e.isTarget then failure
  let repeated := .repeated low high e
  match Plain.dropReluctant (← gap cs) with
  | '+' :: rest => return (.atomic repeated, rest)
  | rest => return (repeated, rest)

def depthLimit : Nat := 64

mutual
/-- Reads alternatives. Groups that have names are not referred to by numbers, unless there
are several alternatives. -/
def alternatives (bound : Nat) : (fuel depth : Nat) → List Char → Reader (Expression × List Char)
  | 0, _, _ => failure
  | fuel + 1, depth, cs => do
    let (first, rest) ← row bound fuel depth [] cs
    match ← gap rest with
    | '|' :: rest =>
      let (others, rest) ← moreAlternatives bound fuel depth rest
      return (.choice (first :: others), rest)
    | rest =>
      let s ← get
      if s.isNumbered && !s.names.isEmpty then failure
      return (first, rest)

def moreAlternatives (bound : Nat) : (fuel depth : Nat) → List Char →
    Reader (List Expression × List Char)
  | 0, _, _ => failure
  | fuel + 1, depth, cs => do
    let (e, rest) ← row bound fuel depth [] cs
    match ← gap rest with
    | '|' :: rest =>
      let (others, rest) ← moreAlternatives bound fuel depth rest
      return (e :: others, rest)
    | rest => return ([e], rest)

/-- Reads expressions in a row, after those in `done`, newest first. -/
def row (bound : Nat) : (fuel depth : Nat) → (done : List Expression) → List Char →
    Reader (Expression × List Char)
  | 0, _, _, _ => failure
  | fuel + 1, depth, done, cs => do
    let finished : Expression := match done with
      | [] => .empty
      | [e] => e
      | es => .sequence es.reverse
    if cs.isEmpty then return (finished, cs)
    let (e, rest) ← piece bound fuel depth cs
    if rest.length = cs.length then return (finished, cs)
    row bound fuel depth (if e.isEmpty then done else e :: done) rest

def piece (bound : Nat) : (fuel depth : Nat) → List Char → Reader (Expression × List Char)
  | 0, _, _ => failure
  | fuel + 1, depth, cs => do
    let (e, rest) ← atom bound fuel depth cs
    let rest ← gap rest
    match rest with
    | '?' :: after => quantified e 0 (some 1) after
    | '*' :: after => quantified e 0 none after
    | '+' :: after => quantified e 1 none after
    | '\x7b' :: after =>
      match counts? (← get).isLoose after with
      | some (low, high, after) => quantified e low high after
      | none => return (e, rest)
    | rest => return (e, rest)

/-- Reads an expression without a repetition. Nothing is read of a mark that ends a row. -/
def atom (bound : Nat) : (fuel depth : Nat) → List Char → Reader (Expression × List Char)
  | 0, _, _ => failure
  | fuel + 1, depth, cs => do
    let cs ← gap cs
    let s ← get
    match cs with
    | [] => return (.empty, [])
    | '.' :: rest => return (.any s.matchesBreaks, rest)
    | '^' :: rest => return (.place false, rest)
    | '$' :: rest => return (.place false, rest)
    | '(' :: rest => group bound fuel depth rest
    | '\\' :: rest =>
      let (m, rest) ← escape bound false rest
      match m with
      | .literal c => return (.literal c s.ignoresCase, rest)
      | .set text => return (← plainSet (text ++ [']']), rest)
      | .expression e => return (e, rest)
    | '[' :: rest => bracketed bound rest
    | c :: rest =>
      if "+*?|)".toList.contains c then return (.empty, c :: rest)
      else return (.literal c s.ignoresCase, rest)

def group (bound : Nat) : (fuel depth : Nat) → List Char → Reader (Expression × List Char)
  | 0, _, _ => failure
  | fuel + 1, depth, cs => do
    if depth + 1 ≥ depthLimit then failure
    let inside (make : Expression → Expression) (rest : List Char) : Reader _ := do
      let (e, rest) ← alternatives bound fuel (depth + 1) rest
      return (make e, ← closing rest)
    let enter : Reader Nat := do
      modify fun s => { s with groups := s.groups + 1 }
      return (← get).groups
    let named (rest : List Char) : Reader _ := do
      let n ← enter
      let (name, rest) ← name? false '>' rest
      modify fun s => { s with names := (.ofList name, n) :: s.names }
      inside (.group n) rest
    match ← gap cs with
    | '?' :: '=' :: rest => inside (.around false) rest
    | '?' :: '!' :: rest => inside (.around false) rest
    | '?' :: '<' :: '=' :: rest => inside (.around true) rest
    | '?' :: '<' :: '!' :: rest => inside (.around true) rest
    | '?' :: '<' :: rest => named rest
    | '?' :: 'P' :: '<' :: rest => named rest
    | '?' :: 'P' :: '=' :: rest => Extended.named ')' rest
    | '?' :: '>' :: rest => inside .atomic rest
    | '?' :: '(' :: rest => conditional bound fuel (depth + 1) rest
    | '?' :: rest =>
      let before ← get
      match ← flags (rest.length + 1) true false rest with
      | ':' :: rest =>
        let (e, rest) ← alternatives bound fuel (depth + 1) rest
        match rest with
        | ')' :: rest =>
          modify fun s => { s with
            ignoresCase := before.ignoresCase
            matchesBreaks := before.matchesBreaks
            isLoose := before.isLoose }
          return (e, rest)
        | _ => failure
      | _ :: rest => return (.empty, rest)
      | [] => failure
    | rest =>
      let n ← enter
      inside (.group n) rest

/-- Reads a conditional, after the parenthesis of its condition. With nothing after the condition it
only asks whether a group took part. -/
def conditional (bound : Nat) : (fuel depth : Nat) → List Char → Reader (Expression × List Char)
  | 0, _, _ => failure
  | fuel + 1, depth, cs => do
    let (condition, rest) ← match cs with
      | [] => failure
      | '<' :: rest => Extended.named '>' rest
      | '\'' :: rest => Extended.named '\'' rest
      | c :: rest =>
        if c.isDigit then numbered bound (c :: rest) else alternatives bound fuel depth (c :: rest)
    let rest ← closing rest
    let (body, after) ← alternatives bound fuel depth rest
    let asked : Expression := match condition with
      | .reference n => .matched n
      | e => e
    if after.length = rest.length then
      match condition with
      | .reference _ => return (asked, ← closing after)
      | _ => failure
    let after ← closing after
    match body with
    | .choice [yes, no] =>
      if yes.isEmpty && no.isEmpty then return (asked, after)
      return (.conditional asked yes no, after)
    | .choice (yes :: others) => return (.conditional asked yes (.choice others), after)
    | body => return (if body.isEmpty then asked else .conditional asked body .empty, after)
end

def read? (cs : List Char) : Option (Expression × List Nat) := do
  let bound := (String.ofList cs).utf8ByteSize / 2
  match ← (alternatives bound (8 * cs.length + 16) 0 cs).run {} with
  | ((e, []), s) => return (e, s.references)
  | _ => none

end CredentialSchema.Pattern.Extended

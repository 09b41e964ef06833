import CredentialSchema.Text.Blank
import CredentialSchema.Text.Digits

/-!
Escapes of the plain dialect, and the blanks and comments that a loose pattern may have between
its marks.
-/
namespace CredentialSchema.Pattern

/-- Why a pattern is not read to its end in the plain dialect. -/
inductive Fault
  /-- It looks around or refers back, which only the extended dialect does. -/
  | beyond
  /-- It names a control character by a letter; this is what follows the letter. -/
  | control (letter : Char) (rest : List Char)
  | invalid
deriving DecidableEq, Repr

inductive Shorthand
  | digit
  | space
  | word
deriving DecidableEq, Repr

inductive Escape
  | literal (code : Nat)
  /-- The bell, by its letter. -/
  | bell
  | shorthand (set : Shorthand) (isNegated : Bool)
  | property (name : List Char) (isNegated : Bool)
  /-- A place between characters. -/
  | place
deriving DecidableEq, Repr

/-- The rest after blanks and comments; a comment goes on to the end of its line. -/
def afterComments (inComment : Bool) : List Char → List Char
  | [] => []
  | c :: cs =>
    if inComment then afterComments (c != '\n') cs
    else if Text.isBlank c then afterComments false cs
    else if c = '#' then afterComments true cs
    else c :: cs

/-- The rest after what does not count here: blanks and comments in a loose pattern. -/
def skip (isLoose : Bool) (cs : List Char) : List Char :=
  if isLoose then afterComments false cs else cs

def character? (ds : List Char) : Except Fault Nat :=
  match Text.hexadecimal? ds with
  | some n => if n < 0xD800 ∨ (0xE000 ≤ n ∧ n < 0x110000) then .ok n else .error .invalid
  | none => .error .invalid

def hexDigits (isLoose : Bool) : (width : Nat) → List Char → Except Fault (List Char × List Char)
  | 0, cs => .ok ([], cs)
  | width + 1, c :: cs => do
    if (Text.hexDigit? c).isNone then throw .invalid
    let (ds, rest) ← hexDigits isLoose width (skip isLoose cs)
    return (c :: ds, rest)
  | _ + 1, [] => .error .invalid

def braced (isLoose : Bool) : (fuel : Nat) → List Char → Except Fault (List Char × List Char)
  | 0, _ => .error .invalid
  | fuel + 1, cs =>
    match skip isLoose cs with
    | [] => .error .invalid
    | '\x7d' :: rest => .ok ([], rest)
    | c :: rest => do
      let (inside, rest) ← braced isLoose fuel rest
      return (c :: inside, rest)

/-- A character by its code, in braces or of a fixed number of digits. -/
def hexCode (isLoose : Bool) (width : Nat) (cs : List Char) :
    Except Fault (Escape × List Char) := do
  let (ds, rest) ← match skip isLoose cs with
    | '\x7b' :: rest =>
      (braced isLoose (rest.length + 1) rest).map fun (ds, rest) => (ds, skip isLoose rest)
    | cs => hexDigits isLoose width cs
  return (.literal (← character? ds), rest)

def property (isLoose isNegated : Bool) (cs : List Char) : Except Fault (Escape × List Char) :=
  match skip isLoose cs with
  | '\x7b' :: rest => do
    let (name, rest) ← braced isLoose (rest.length + 1) rest
    return (.property name isNegated, rest)
  | '\\' :: _ => .error .invalid
  | c :: rest => .ok (.property [c] isNegated, skip isLoose rest)
  | [] => .error .invalid

def boundaryMarks : List String := ["start", "end", "start-half", "end-half"]

def isMarkChar (c : Char) : Bool := c.isAlpha || c == '-'

def mark (isLoose : Bool) : (fuel : Nat) → List Char → List Char × List Char
  | fuel + 1, c :: cs =>
    if isMarkChar c then
      let (name, rest) := mark isLoose fuel (skip isLoose cs)
      (c :: name, rest)
    else ([], c :: cs)
  | _, cs => ([], cs)

/-- A word boundary; letters in braces after it have to be one of its marks. -/
def boundary (isLoose : Bool) (cs : List Char) : Except Fault (Escape × List Char) :=
  match cs with
  | '\x7b' :: rest =>
    match mark isLoose (rest.length + 1) (skip isLoose rest) with
    | ([], []) => .error .invalid
    | ([], _ :: _) => .ok (.place, cs)
    | (name, '\x7d' :: rest) =>
      if boundaryMarks.contains (.ofList name) then .ok (.place, rest) else .error .invalid
    | _ => .error .invalid
  | _ => .ok (.place, cs)

/-- Whether a character may be escaped to stand for itself: those of ASCII that are no letters and
no digits, but for two that are places. -/
def isEscapable (c : Char) : Bool :=
  c.toNat < 0x80 && !c.isAlphanum && c != '<' && c != '>'

def escape (isLoose : Bool) (cs : List Char) : Except Fault (Escape × List Char) :=
  match cs with
  | [] => .error .invalid
  | c :: rest =>
    match c with
    | 'x' => hexCode isLoose 2 rest
    | 'u' => hexCode isLoose 4 rest
    | 'U' => hexCode isLoose 8 rest
    | 'p' => property isLoose false rest
    | 'P' => property isLoose true rest
    | 'd' => .ok (.shorthand .digit false, rest)
    | 'D' => .ok (.shorthand .digit true, rest)
    | 's' => .ok (.shorthand .space false, rest)
    | 'S' => .ok (.shorthand .space true, rest)
    | 'w' => .ok (.shorthand .word false, rest)
    | 'W' => .ok (.shorthand .word true, rest)
    | 'a' => .ok (.bell, rest)
    | 'f' => .ok (.literal 12, rest)
    | 't' => .ok (.literal 9, rest)
    | 'n' => .ok (.literal 10, rest)
    | 'r' => .ok (.literal 13, rest)
    | 'v' => .ok (.literal 11, rest)
    | 'A' | 'z' | 'B' | '<' | '>' => .ok (.place, rest)
    | 'b' => boundary isLoose rest
    | 'c' =>
      match rest with
      | l :: rest => .error (if l.isAlpha then .control l rest else .invalid)
      | [] => .error .invalid
    | c =>
      if c.isDigit then .error .beyond
      else if isEscapable c then .ok (.literal c.toNat, rest)
      else .error .invalid

end CredentialSchema.Pattern

import CredentialSchema.Document.Reading
import CredentialSchema.Json.Numeral

/-!
Reading JSON text. The grammar decides whether a text is JSON at all; a part that is
well-formed but has no value (a number out of range, a lone surrogate, nesting beyond 127
levels) makes the document unreadable at that part.
-/
namespace CredentialSchema.Json.Reader

def isSpace (c : Char) : Bool := c == ' ' || c == '\n' || c == '\t' || c == '\r'

def skip (cs : List Char) : List Char := cs.dropWhile isSpace

def unit? (a b c d : Char) : Option Nat := Text.hexadecimal? [a, b, c, d]

def shortEscape? : Char → Option Char
  | '"' => some '"'
  | '\\' => some '\\'
  | '/' => some '/'
  | 'b' => some '\x08'
  | 'f' => some '\x0c'
  | 'n' => some '\n'
  | 'r' => some '\r'
  | 't' => some '\t'
  | _ => none

/-- The body of a string up to its closing quote, as code points and UTF-16 units: an escape
contributes one unit, any other character its code point. -/
def stringBody : List Char → Option (List Nat × List Char)
  | [] => none
  | '"' :: rest => some ([], rest)
  | '\\' :: 'u' :: a :: b :: c :: d :: rest => do
    let u ← unit? a b c d
    let (us, rest) ← stringBody rest
    return (u :: us, rest)
  | '\\' :: c :: rest => do
    let e ← shortEscape? c
    let (us, rest) ← stringBody rest
    return (e.toNat :: us, rest)
  | c :: rest =>
    if c.toNat < 0x20 || c == '\\' then none
    else do
      let (us, rest) ← stringBody rest
      return (c.toNat :: us, rest)

/-- Joins surrogate pairs; none if a surrogate stands alone. -/
def joinUnits : List Nat → Option (List Char)
  | [] => some []
  | hi :: us =>
    if 0xD800 ≤ hi ∧ hi < 0xDC00 then
      match us with
      | lo :: us =>
        if 0xDC00 ≤ lo ∧ lo < 0xE000 then
          (joinUnits us).map (Char.ofNat (0x10000 + (hi - 0xD800) * 0x400 + (lo - 0xDC00)) :: ·)
        else none
      | [] => none
    else if 0xDC00 ≤ hi ∧ hi < 0xE000 then none
    else (joinUnits us).map (Char.ofNat hi :: ·)

def digits (cs : List Char) : List Nat × List Char :=
  ((cs.takeWhile Char.isDigit).map fun c => c.toNat - 48, cs.dropWhile Char.isDigit)

def digits1? (cs : List Char) : Option (List Nat × List Char) :=
  match digits cs with
  | ([], _) => none
  | r => some r

/-- The whole part of a literal: a zero, or digits that do not begin with one. -/
def wholePart? (cs : List Char) : Option (List Nat × List Char) :=
  match digits1? cs with
  | some (0 :: _ :: _, _) => none
  | r => r

def fractionPart? : List Char → Option (Option (List Nat) × List Char)
  | '.' :: cs => (digits1? cs).map fun (ds, rest) => (some ds, rest)
  | cs => some (none, cs)

def powerPart? (cs : List Char) : Option (Option Int × List Char) :=
  let power (sign : Int) (cs : List Char) :=
    (digits1? cs).map fun (ds, rest) => (some (sign * Text.ofDigits 10 ds), rest)
  match cs with
  | c :: cs' =>
    if c == 'e' || c == 'E' then
      match cs' with
      | '+' :: r => power 1 r
      | '-' :: r => power (-1) r
      | r => power 1 r
    else some (none, cs)
  | [] => some (none, [])

def numeral? (negative : Bool) (cs : List Char) : Option (Numeral × List Char) := do
  let (whole, cs) ← wholePart? cs
  let (fraction, cs) ← fractionPart? cs
  let (power, cs) ← powerPart? cs
  return (⟨negative, whole, fraction, power⟩, cs)

def number? (negative : Bool) (cs : List Char) : Option (Document × List Char) := do
  let (n, rest) ← numeral? negative cs
  return ((n.value?.map Document.number).getD .unreadable, rest)

def word? (w : List Char) (cs : List Char) : Option (List Char) :=
  if w.isPrefixOf cs then some (cs.drop w.length) else none

/-- A container at a nesting level, which has no value when no level is left. -/
def nested (levels : Nat) (d : Document) : Document := if levels = 0 then .unreadable else d

mutual
/-- A value at the head of a text, with so many nesting levels left. -/
def value? : (fuel : Nat) → (levels : Nat) → List Char → Option (Document × List Char)
  | 0, _, _ => none
  | fuel + 1, levels, cs =>
    match skip cs with
    | 'n' :: r => (word? ['u', 'l', 'l'] r).map fun r => (.null, r)
    | 't' :: r => (word? ['r', 'u', 'e'] r).map fun r => (.bool true, r)
    | 'f' :: r => (word? ['a', 'l', 's', 'e'] r).map fun r => (.bool false, r)
    | '"' :: r => do
      let (us, r) ← stringBody r
      return (((joinUnits us).map fun s => Document.text (.ofList s)).getD .unreadable, r)
    | '-' :: r => number? true r
    | '[' :: r =>
      match skip r with
      | ']' :: r => some (nested levels (.sequence []), r)
      | r => do
        let (ds, r) ← items? fuel (levels - 1) r
        return (nested levels (.sequence ds), r)
    | '{' :: r =>
      match skip r with
      | '}' :: r => some (nested levels (.mapping []), r)
      | r => do
        let (ms, r) ← members? fuel (levels - 1) r
        return (nested levels (ms.elim .unreadable .mapping), r)
    | r => number? false r

def items? : (fuel : Nat) → (levels : Nat) → List Char → Option (List Document × List Char)
  | 0, _, _ => none
  | fuel + 1, levels, cs => do
    let (d, r) ← value? fuel levels cs
    match skip r with
    | ',' :: r => do
      let (ds, r) ← items? fuel levels r
      return (d :: ds, r)
    | ']' :: r => return ([d], r)
    | _ => none

/-- The members of an object, up to its closing brace; no members if a name has no value. -/
def members? : (fuel : Nat) → (levels : Nat) → List Char →
    Option (Option (List (Document × Document)) × List Char)
  | 0, _, _ => none
  | fuel + 1, levels, cs =>
    match skip cs with
    | '"' :: r => do
      let (us, r) ← stringBody r
      let name := (joinUnits us).map fun s => Document.text (.ofList s)
      match skip r with
      | ':' :: r => do
        let (d, r) ← value? fuel levels r
        let member := name.map fun k => (k, d)
        match skip r with
        | ',' :: r => do
          let (ms, r) ← members? fuel levels r
          return (do return (← member) :: (← ms), r)
        | '}' :: r => return (member.map fun m => [m], r)
        | _ => none
      | _ => none
    | _ => none
end

end Reader

def nestingLimit : Nat := 127

/-- The document that a text spells, if it is JSON with nothing after it. -/
def read? (text : String) : Option Document := do
  let cs := text.toList
  let (d, rest) ← Reader.value? (2 * cs.length + 2) nestingLimit cs
  if (Reader.skip rest).isEmpty then some d else none

def parse? (text : String) : Option Value := (read? text).bind Document.toValue?

end CredentialSchema.Json

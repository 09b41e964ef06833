import CredentialSchema.Pattern.Escape
import CredentialSchema.Pattern.Property

/-!
Sets of characters in brackets: their syntax, how deep they are, and the size of an automaton for
one character out of them.
-/
namespace CredentialSchema.Pattern

/-- A set of characters as it is written. -/
inductive CharacterSet
  | range (low high : Nat)
  | shorthand (set : Shorthand) (isNegated : Bool)
  | property (name : List Char) (isNegated : Bool)
  /-- A class of ASCII characters by its ranges. -/
  | ascii (ranges : List Range) (isNegated : Bool)
  | union (parts : List CharacterSet)
  | bracket (isNegated : Bool) (body : CharacterSet)
  /-- What is in one set, and in another one or not. -/
  | combination (left right : CharacterSet)
deriving Repr

namespace CharacterSet

def asciiClasses : List (String × List Range) := [
  ("alnum", [(0x30, 0x39), (0x41, 0x5A), (0x61, 0x7A)]), ("alpha", [(0x41, 0x5A), (0x61, 0x7A)]),
  ("ascii", [(0, 0x7F)]), ("blank", [(9, 9), (0x20, 0x20)]), ("cntrl", [(0, 0x1F), (0x7F, 0x7F)]),
  ("digit", [(0x30, 0x39)]), ("graph", [(0x21, 0x7E)]), ("lower", [(0x61, 0x7A)]),
  ("print", [(0x20, 0x7E)]),
  ("punct", [(0x21, 0x2F), (0x3A, 0x40), (0x5B, 0x60), (0x7B, 0x7E)]),
  ("space", [(9, 13), (0x20, 0x20)]), ("upper", [(0x41, 0x5A)]),
  ("word", [(0x30, 0x39), (0x41, 0x5A), (0x5F, 0x5F), (0x61, 0x7A)]),
  ("xdigit", [(0x30, 0x39), (0x41, 0x46), (0x61, 0x66)])]

def asciiClass? (cs : List Char) : Option (CharacterSet × List Char) :=
  match cs with
  | ':' :: rest =>
    let isNegated := rest.head? = some '^'
    let rest := if isNegated then rest.drop 1 else rest
    match rest.dropWhile (· != ':') with
    | ':' :: ']' :: after => do
      let ranges ← asciiClasses.lookup (.ofList (rest.takeWhile (· != ':')))
      return (.ascii ranges isNegated, after)
    | _ => none
  | _ => none

def item (isLoose : Bool) (cs : List Char) : Except Fault (CharacterSet × List Char) :=
  match cs with
  | [] => .error .invalid
  | '\\' :: rest => do
    match ← escape isLoose rest with
    | (.literal n, rest) => return (.range n n, rest)
    | (.bell, rest) => return (.range 7 7, rest)
    | (.shorthand k n, rest) => return (.shorthand k n, rest)
    | (.property name n, rest) => return (.property name n, rest)
    | (.place, _) => throw .invalid
  | c :: rest => .ok (.range c.toNat c.toNat, rest)

/-- An item of a set, or a range between two characters. A hyphen before another one or before
the closing bracket makes no range. -/
def rangeItem (isLoose : Bool) (cs : List Char) : Except Fault (CharacterSet × List Char) := do
  let (first, rest) ← item isLoose cs
  match skip isLoose rest with
  | [] => throw .invalid
  | '-' :: after =>
    match skip isLoose after with
    | [] => throw .invalid
    | c :: _ =>
      if c = ']' ∨ c = '-' then return (first, '-' :: after)
      let (last, rest) ← item isLoose (skip isLoose after)
      match first, last with
      | .range a _, .range b _ => if a ≤ b then return (.range a b, rest) else throw .invalid
      | _, _ => throw .invalid
  | rest => return (first, rest)

def hyphens (isLoose : Bool) : (fuel : Nat) → List Char → List CharacterSet × List Char
  | fuel + 1, '-' :: rest =>
    let (parts, rest) := hyphens isLoose fuel (skip isLoose rest)
    (.range 0x2D 0x2D :: parts, rest)
  | _, cs => ([], cs)

/-- The opening of a set after its bracket: whether it is negated, hyphens that stand for themselves
and, without one, a closing bracket that does. -/
def opening (isLoose : Bool) (cs : List Char) : Bool × List CharacterSet × List Char :=
  let cs := skip isLoose cs
  let isNegated := cs.head? = some '^'
  let cs := if isNegated then skip isLoose (cs.drop 1) else cs
  match hyphens isLoose (cs.length + 1) cs, cs with
  | ([], _), ']' :: rest => (isNegated, [.range 0x5D 0x5D], skip isLoose rest)
  | (parts, rest), _ => (isNegated, parts, rest)

def ofParts : List CharacterSet → CharacterSet
  | [part] => part
  | parts => .union parts

def combined : Option CharacterSet → CharacterSet → CharacterSet
  | some left, right => .combination left right
  | none, right => right

def depthLimit : Nat := 250

def body (isLoose : Bool) : (fuel depth : Nat) → (pending : Option CharacterSet) →
    (parts : List CharacterSet) → List Char → Except Fault (CharacterSet × List Char)
  | 0, _, _, _, _ => .error .invalid
  | fuel + 1, depth, pending, parts, cs =>
    let operation (rest : List Char) :=
      body isLoose fuel depth (some (combined pending (ofParts parts))) [] rest
    match skip isLoose cs with
    | [] => .error .invalid
    | ']' :: rest => .ok (combined pending (ofParts parts), rest)
    | '[' :: rest =>
      match asciiClass? rest with
      | some (part, rest) => body isLoose fuel depth pending (parts ++ [part]) rest
      | none =>
        if depth = 0 then .error .invalid
        else do
          let (isNegated, start, rest) := opening isLoose rest
          let (part, rest) ← body isLoose fuel (depth - 1) none start rest
          body isLoose fuel depth pending (parts ++ [.bracket isNegated part]) rest
    | '&' :: '&' :: rest => operation rest
    | '-' :: '-' :: rest => operation rest
    | '~' :: '~' :: rest => operation rest
    | cs => do
      let (part, rest) ← rangeItem isLoose cs
      body isLoose fuel depth pending (parts ++ [part]) rest

def read (isLoose : Bool) (cs : List Char) : Except Fault (CharacterSet × List Char) := do
  let (isNegated, start, rest) := opening isLoose cs
  let (part, rest) ← body isLoose (cs.length + 1) depthLimit none start rest
  return (.bracket isNegated part, rest)

mutual
def height : CharacterSet → Nat
  | .range .. | .property .. | .ascii .. => 0
  | .shorthand k isNegated => if k = .digit ∧ !isNegated then 1 else 2
  | .union parts => 1 + heights parts
  | .bracket _ body => 1 + height body
  | .combination left right => 1 + max (height left) (height right)

def heights : List CharacterSet → Nat
  | [] => 0
  | s :: ss => max (height s) (heights ss)
end

mutual
def properties : CharacterSet → List (List Char)
  | .property name _ => [name]
  | .union parts => allProperties parts
  | .bracket _ body => properties body
  | .combination left right => properties left ++ properties right
  | .range .. | .shorthand .. | .ascii .. => []

def allProperties : List CharacterSet → List (List Char)
  | [] => []
  | s :: ss => properties s ++ allProperties ss
end

def isKnown (s : CharacterSet) : Bool := s.properties.all fun name => (Property.find? name).isSome

end CharacterSet

/-- The characters of a set, as far as they bear on its size: ranges in order, and the room of the
properties besides. -/
structure Extent where
  ranges : List Range
  room : Size

namespace Extent

def join (r : Range) : List Range → List Range
  | [] => [r]
  | s :: rest => if s.1 ≤ r.2 + 1 then join (r.1, max r.2 s.2) rest else r :: s :: rest

def tidy (ranges : List Range) : List Range :=
  (ranges.mergeSort fun a b => a.1 ≤ b.1).foldr (fun r rest => join r rest) []

def ofRanges (ranges : List Range) : Extent := ⟨tidy ranges, .none⟩

def ofSize (room : Size) : Extent := ⟨[], room⟩

def union (a b : Extent) : Extent := ⟨tidy (a.ranges ++ b.ranges), a.room + b.room⟩

def gaps (start : Nat) : List Range → List Range
  | [] => if start ≤ 0x10FFFF then [(start, 0x10FFFF)] else []
  | (low, high) :: rest =>
    if start < low then (start, low - 1) :: gaps (high + 1) rest else gaps (high + 1) rest

/-- All other characters. Besides properties they take about as much room as the set itself. -/
def complement (a : Extent) : Extent :=
  if a.room = .none then ⟨gaps 0 a.ranges, .none⟩ else a

def negatedIf (isNegated : Bool) (a : Extent) : Extent := if isNegated then a.complement else a

/-- The code point of an ASCII letter in the other case, and of the characters beyond ASCII
that are taken for it. -/
def otherCases (n : Nat) : List Nat :=
  let others :=
    if n = 0x4B ∨ n = 0x6B then [0x212A]
    else if n = 0x53 ∨ n = 0x73 then [0x17F]
    else []
  if 0x41 ≤ n ∧ n ≤ 0x5A then (n + 0x20) :: others
  else if 0x61 ≤ n ∧ n ≤ 0x7A then (n - 0x20) :: others
  else []

def foldedIf (ignoresCase : Bool) (a : Extent) : Extent :=
  if ignoresCase then
    let letters := (List.range 0x80).filter fun n => a.ranges.any fun r => r.1 ≤ n && n ≤ r.2
    ⟨tidy (a.ranges ++ (letters.flatMap otherCases).map fun n => (n, n)), a.room⟩
  else a

def size (a : Extent) : Size :=
  if a.room = .none then rangesSize a.ranges
  else if a.ranges.isEmpty then a.room
  else a.room + rangesSize a.ranges

end Extent

/-- What a shorthand stands for, among ASCII characters and a few blanks or among all. -/
def Shorthand.extent (isNarrow : Bool) : Shorthand → Extent
  | .digit => if isNarrow then .ofRanges [(0x30, 0x39)] else .ofSize ⟨1537, 5021⟩
  | .word =>
    if isNarrow then .ofRanges [(0x30, 0x39), (0x41, 0x5A), (0x5F, 0x5F), (0x61, 0x7A)]
    else .ofSize ⟨20556, 49672⟩
  | .space =>
    if isNarrow then
      .ofRanges [(9, 13), (0x20, 0x20), (0xA0, 0xA0), (0x2003, 0x2003), (0x2029, 0x2029),
        (0xFEFF, 0xFEFF)]
    else .ofSize ⟨424, 680⟩

namespace CharacterSet

mutual
/-- The characters of a set. Of a combination all characters of both sides are taken. -/
def extent (isNarrow : Bool) : CharacterSet → Extent
  | .range low high => .ofRanges [(low, high)]
  | .shorthand k isNegated => (k.extent isNarrow).negatedIf isNegated
  | .property name isNegated =>
    (Extent.ofSize (((Property.find? name).map (·.size)).getD .none)).negatedIf isNegated
  | .ascii ranges isNegated => (Extent.ofRanges ranges).negatedIf isNegated
  | .union parts => extents isNarrow parts
  | .bracket isNegated body => (extent isNarrow body).negatedIf isNegated
  | .combination left right => (extent isNarrow left).union (extent isNarrow right)

def extents (isNarrow : Bool) : List CharacterSet → Extent
  | [] => .ofRanges []
  | s :: ss => (extent isNarrow s).union (extents isNarrow ss)
end

end CharacterSet
end CredentialSchema.Pattern

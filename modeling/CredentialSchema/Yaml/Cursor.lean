import CredentialSchema.Yaml.Character

/-!
A place in a text that is being read, with its column and line. Columns decide what belongs to
what in YAML, so every step forward keeps them. The gaps between the words of a scalar are read
here too: blanks inside a line stay, and line breaks are folded.
-/
namespace CredentialSchema.Yaml

/-- What is left of a text, and where that begins. -/
structure Cursor where
  rest : List Char
  index : Nat := 0
  line : Nat := 0
  column : Nat := 0
deriving Repr

namespace Cursor

def peek? (c : Cursor) : Option Char := c.rest.head?

def skip (c : Cursor) (n : Nat) : Cursor :=
  { c with rest := c.rest.drop n, index := c.index + n, column := c.column + n }

def skipWhile (c : Cursor) (p : Char → Bool) : Cursor := c.skip (c.rest.takeWhile p).length

def newLine (c : Cursor) (n : Nat) : Cursor :=
  { rest := c.rest.drop n, index := c.index + n, line := c.line + 1, column := 0 }

def takeBreak? (c : Cursor) : Option (Char × Cursor) :=
  match c.rest with
  | '\r' :: '\n' :: _ => some ('\n', c.newLine 2)
  | d :: _ => if isBreak d then some (breakText d, c.newLine 1) else none
  | [] => none

def skipBreak (c : Cursor) : Cursor := (c.takeBreak?.map (·.2)).getD c

def atMarker (c : Cursor) (mark : String) : Bool :=
  c.column == 0 && mark.toList.isPrefixOf c.rest && startsGap (c.rest.drop 3)

def atDocumentMarker (c : Cursor) : Bool := c.atMarker "---" || c.atMarker "..."

end Cursor

/-- What stands between two words of a scalar. -/
inductive Gap
  /-- Blanks inside a line. -/
  | blanks (cs : List Char)
  /-- A first line break, if it counts, and those after it; blanks beside them are lost. -/
  | breaks (first : Option Char) (further : List Char)
deriving Repr

namespace Gap

def addBreak (g : Gap) (c : Char) : Gap :=
  match g with
  | .blanks _ => .breaks (some c) []
  | .breaks first further => .breaks first (further ++ [c])

/-- The text of a gap: a line feed with none after it is a blank, and it is nothing before
others. -/
def text : Gap → List Char
  | .blanks cs => cs
  | .breaks (some '\n') [] => [' ']
  | .breaks (some '\n') further => further
  | .breaks first further => first.toList ++ further

def isBroken : Gap → Bool
  | .blanks _ => false
  | .breaks _ _ => true

/-- Reads the rest of a gap. On a new line no tab stands before the column `least`. -/
def read? (least : Nat) (fuel : Nat) (g : Gap) (c : Cursor) : Option (Gap × Cursor) :=
  match fuel with
  | 0 => none
  | fuel + 1 =>
    match c.takeBreak? with
    | some (d, next) => read? least fuel (g.addBreak d) next
    | none =>
      match c.rest, g with
      | d :: _, .blanks cs =>
        if isBlank d then read? least fuel (.blanks (cs ++ [d])) (c.skip 1) else some (g, c)
      | d :: _, .breaks _ _ =>
        if d == '\t' && c.column < least then none
        else if isBlank d then read? least fuel g (c.skip 1)
        else some (g, c)
      | [], _ => some (g, c)

end Gap
end CredentialSchema.Yaml

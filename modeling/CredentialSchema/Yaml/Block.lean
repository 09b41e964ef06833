import CredentialSchema.Text.Digits
import CredentialSchema.Yaml.Cursor

/-!
Block scalars, whose lines stand at one indentation below their header. A literal one keeps its
line breaks; a folded one joins lines of text by a blank, but not around lines that are indented
further.
-/
namespace CredentialSchema.Yaml

structure BlockHeader where
  isFolded : Bool
  /-- How far the lines are indented, if the header says so. -/
  indentation : Option Nat := none
  /-- Whether the line breaks at the end are kept or dropped; otherwise one is kept. -/
  keeps : Option Bool := none
deriving Repr

namespace BlockHeader

/-- The marks after the bar or the angle of a header, in either order, and what follows. -/
def marks? (h : BlockHeader) (cs : List Char) : Option (BlockHeader × List Char) :=
  let keep? (c : Char) : Option Bool :=
    if c == '+' then some true else if c == '-' then some false else none
  match cs with
  | c :: d :: cs =>
    match keep? c, Text.digit? c with
    | some k, _ =>
      match Text.digit? d with
      | some 0 => none
      | some n => some ({ h with keeps := some k, indentation := some n }, cs)
      | none => some ({ h with keeps := some k }, d :: cs)
    | none, some 0 => none
    | none, some n =>
      match keep? d with
      | some k => some ({ h with keeps := some k, indentation := some n }, cs)
      | none => some ({ h with indentation := some n }, d :: cs)
    | none, none => some (h, c :: d :: cs)
  | [c] =>
    match keep? c, Text.digit? c with
    | some k, _ => some ({ h with keeps := some k }, [])
    | none, some 0 => none
    | none, some n => some ({ h with indentation := some n }, [])
    | none, none => some (h, [c])
  | [] => some (h, [])

def read? (c : Cursor) : Option (BlockHeader × Cursor) := do
  let (h, rest) ← marks? { isFolded := c.peek? == some '>' } (c.rest.drop 1)
  let after := (c.skip (c.rest.length - rest.length)).skipWhile isBlank
  let after := if after.peek? == some '#' then after.skipWhile (!isBreak ·) else after
  if startsBreak after.rest then some (h, after.skipBreak) else none

end BlockHeader

/-- Passes over the indentation of lines and over lines without text. With a known indentation
no more than that is passed over; without one the widest is found. -/
def blockBreaks? (indent : Option Nat) (fuel : Nat) (widest : Nat) (breaks : List Char)
    (c : Cursor) : Option (Nat × List Char × Cursor) :=
  match fuel with
  | 0 => none
  | fuel + 1 =>
    let blanks := (c.rest.takeWhile (· == ' ')).length
    let c := c.skip ((indent.map fun n => min blanks (n - c.column)).getD blanks)
    let widest := max widest c.column
    if (indent.all fun n => c.column < n) && c.peek? == some '\t' then none
    else match c.takeBreak? with
      | some (d, next) => blockBreaks? indent fuel widest (breaks ++ [d]) next
      | none => some (widest, breaks, c)

/-- The lines of a block scalar: its text without the breaks at the end, the break of its last
line, and the breaks after that. -/
def blockLines? (isFolded : Bool) (indent : Nat) (fuel : Nat) (afterBlank : Bool)
    (lineBreak : List Char) (breaks : List Char) (c : Cursor) :
    Option (List Char × List Char × List Char × Cursor) :=
  match fuel with
  | 0 => none
  | fuel + 1 =>
    if c.column != indent || c.rest.isEmpty then some ([], lineBreak, breaks, c)
    else do
      let startsBlank := c.peek?.any isBlank
      let joined :=
        if isFolded && lineBreak == ['\n'] && !afterBlank && !startsBlank then
          if breaks.isEmpty then [' '] else breaks
        else lineBreak ++ breaks
      let line := c.rest.takeWhile (!isBreak ·)
      let after := c.skip line.length
      let (own, next) := match after.takeBreak? with
        | some (d, next) => ([d], next)
        | none => ([], after)
      let (_, further, next) ← blockBreaks? (some indent) (next.rest.length + 1) 0 [] next
      let (s, last, tail, place) ← blockLines? isFolded indent fuel startsBlank own further next
      return (joined ++ line ++ s, last, tail, place)

/-- The text of a block scalar inside a collection at an indentation, and the place after it. -/
def block? (parent : Int) (c : Cursor) : Option (List Char × Cursor) := do
  let (h, c) ← BlockHeader.read? c
  let given := h.indentation.map fun n => parent.toNat + n
  let (widest, breaks, c) ← blockBreaks? given (c.rest.length + 1) 0 [] c
  let indent := given.getD (max (max widest (parent + 1).toNat) 1)
  let (s, last, tail, c) ←
    blockLines? h.isFolded indent (c.rest.length + 1) false [] breaks c
  return (match h.keeps with
    | some true => s ++ last ++ tail
    | some false => s
    | none => s ++ last, c)

end CredentialSchema.Yaml

import CredentialSchema.Text.Digits
import CredentialSchema.Yaml.Cursor

/-!
Names in YAML: anchors, tags and the directives that abbreviate tags.
-/
namespace CredentialSchema.Yaml

/-- A tag as it is written: a handle and what follows it. -/
structure Tag where
  handle : String
  suffix : String
deriving DecidableEq, Repr

inductive Directive
  | version (major minor : Nat)
  | tag (handle start : String)
  /-- A directive that means nothing here. -/
  | other
deriving DecidableEq, Repr

def anchorName? (c : Cursor) : Option (String × Cursor) :=
  let name := (c.rest.drop 1).takeWhile isNameChar
  let after := c.skip (name.length + 1)
  let isEnd := after.peek?.all fun d => isGap d || "?:,]\x7d%@`".toList.contains d
  if name.isEmpty || !isEnd then none else some (.ofList name, after)

/-- Whether a character may stand in a tag; one in full may hold the marks of flow too. -/
def isTagChar (isFull : Bool) (c : Char) : Bool :=
  isNameChar c || ";/?:@&=+$.!~*'()%".toList.contains c || (isFull && ",[]".toList.contains c)

def tagBytes? : List Char → Option (List UInt8)
  | [] => some []
  | '%' :: a :: b :: cs => do
    let n := 16 * (← Text.hexDigit? a) + (← Text.hexDigit? b)
    return UInt8.ofNat n :: (← tagBytes? cs)
  | '%' :: _ => none
  | c :: cs => (tagBytes? cs).map (String.utf8EncodeChar c ++ ·)

def tagText? (isFull : Bool) (start : List Char) (c : Cursor) : Option (String × Cursor) := do
  let cs := c.rest.takeWhile (isTagChar isFull)
  let s ← String.fromUTF8? ⟨(← tagBytes? cs).toArray⟩
  if start.isEmpty && cs.isEmpty then none
  return (.ofList start ++ s, c.skip cs.length)

/-- The handle of a tag: an exclamation mark, a name and, if there is one, another mark. -/
def tagHandle (c : Cursor) : List Char × Cursor :=
  let name := (c.rest.drop 1).takeWhile isNameChar
  let after := c.skip (name.length + 1)
  if after.peek? == some '!' then ('!' :: name ++ ['!'], after.skip 1) else ('!' :: name, after)

def tag? (inFlow : Bool) (c : Cursor) : Option (Tag × Cursor) := do
  let (t, after) ←
    if (c.rest.drop 1).head? == some '<' then do
      let (s, after) ← tagText? true [] (c.skip 2)
      if after.peek? == some '>' then some (⟨"", s⟩, after.skip 1) else none
    else
      let (handle, after) := tagHandle c
      if 2 ≤ handle.length && handle.getLast? == some '!' then do
        let (s, after) ← tagText? false [] after
        some (⟨.ofList handle, s⟩, after)
      else do
        let name := handle.drop 1
        let cs := after.rest.takeWhile (isTagChar false)
        if name.isEmpty && cs.isEmpty then some (⟨"", "!"⟩, after)
        else
          let (s, after) ← tagText? false name after
          some (⟨"!", s⟩, after)
  if startsGap after.rest || (inFlow && after.peek? == some ',') then some (t, after) else none

def versionNumber? (c : Cursor) : Option (Nat × Cursor) := do
  let ds := c.rest.takeWhile Char.isDigit
  if 9 < ds.length then none
  return (← Text.decimal? ds, c.skip ds.length)

def directive? (c : Cursor) : Option (Directive × Cursor) := do
  let name := (c.rest.drop 1).takeWhile isNameChar
  let after := c.skip (name.length + 1)
  if name.isEmpty || !startsGap after.rest then none
  let blanks (c : Cursor) := c.skipWhile isBlank
  let (d, after) ←
    if name == "YAML".toList then do
      let (major, after) ← versionNumber? (blanks after)
      if after.peek? == some '.' then do
        let (minor, after) ← versionNumber? (after.skip 1)
        some (Directive.version major minor, after)
      else none
    else if name == "TAG".toList then do
      if (blanks after).peek? == some '!' then do
        let (handle, after) := tagHandle (blanks after)
        if handle.getLast? == some '!' && after.peek?.any isBlank then do
          let (start, after) ← tagText? true [] (blanks after)
          if startsGap after.rest then some (.tag (.ofList handle) start, after) else none
        else none
      else none
    else none
  let after := blanks after
  let after := if after.peek? == some '#' then after.skipWhile (!isBreak ·) else after
  if startsBreak after.rest then some (d, after.skipBreak) else none

end CredentialSchema.Yaml

import CredentialSchema.Unicode.Ranges

/-!
Characters that stand for others. Their text is a list of entries, divided by blanks and line
breaks: a first character and, after an angle, what it and those after it stand for, divided by
commas, several characters with plus signs between them. An entry for a range moves its characters
by one distance; with `/2` it is every other character of the range that is moved.
-/
namespace CredentialSchema.Unicode

inductive Image
  /-- Every so many characters up to a last one are moved to a new start. -/
  | moved (last step start : Nat)
  /-- Each stands for a list of its own. -/
  | listed (images : Array (List Char))
deriving Repr

structure Images where
  entries : Array (Nat × Image)

namespace Images

def entry (cs : List Char) : Nat × Image :=
  let key := cs.takeWhile (· != '>')
  let value := (cs.dropWhile (· != '>')).drop 1
  let range := key.takeWhile (· != '/')
  if range.contains '-' then
    let (first, last) := ends range
    (first, .moved last (if range.length < key.length then 2 else 1) (number value))
  else
    (number key, .listed ((value.splitOn ',').map fun image =>
      (image.splitOn '+').map fun c => Char.ofNat (number c)).toArray)

def ofText (s : String) : Images :=
  ⟨(((words s).map entry).mergeSort fun a b => a.1 ≤ b.1).toArray⟩

def get? (m : Images) (c : Char) : Option (List Char) :=
  match floor? m.entries c.toNat with
  | some (first, .moved last step start) =>
    let distance := c.toNat - first
    if c.toNat ≤ last ∧ distance % step = 0 then some [.ofNat (start + distance)] else none
  | some (first, .listed images) => images[c.toNat - first]?
  | none => none

def toList (m : Images) : List (Char × List Char) :=
  m.entries.toList.flatMap fun (first, image) =>
    match image with
    | .moved last step start =>
      (List.range (last + 1 - first)).filterMap fun d =>
        if d % step = 0 then some (.ofNat (first + d), [.ofNat (start + d)]) else none
    | .listed images => images.toList.mapIdx fun i cs => (.ofNat (first + i), cs)

end Images
end CredentialSchema.Unicode

import CredentialSchema.Text.Digits

/-!
Sets of characters as sorted ranges of code points. Their text is a list of hexadecimal numbers
and of pairs of them with a hyphen, divided by blanks and line breaks.
-/
namespace CredentialSchema.Unicode

/-- The last of some sorted entries whose key is at most a number, between two places. -/
def floorBetween? (entries : Array (Nat × α)) (n low high : Nat) : Option (Nat × α) :=
  if _h : low < high then
    let middle := (low + high) / 2
    match entries[middle]? with
    | none => none
    | some entry =>
      if entry.1 ≤ n then (floorBetween? entries n (middle + 1) high).or (some entry)
      else floorBetween? entries n low middle
  else none
termination_by high - low

def floor? (entries : Array (Nat × α)) (n : Nat) : Option (Nat × α) :=
  floorBetween? entries n 0 entries.size

structure Ranges where
  /-- The first and the last code point of each range, in order. -/
  entries : Array (Nat × Nat)

/-- A hexadecimal number; zero if the text is none. -/
def number (cs : List Char) : Nat := (Text.hexadecimal? cs).getD 0

def ends (cs : List Char) : Nat × Nat :=
  let first := cs.takeWhile (· != '-')
  match cs.dropWhile (· != '-') with
  | _ :: last => (number first, number last)
  | [] => (number first, number first)

def words (s : String) : List (List Char) :=
  (s.toList.splitBy fun a b => !a.isWhitespace && !b.isWhitespace).filter fun w =>
    !w.any Char.isWhitespace

namespace Ranges

def ofText (s : String) : Ranges :=
  ⟨(((words s).map ends).mergeSort fun a b => a.1 ≤ b.1).toArray⟩

def contains (r : Ranges) (c : Char) : Bool :=
  (floor? r.entries c.toNat).any fun (_, last) => c.toNat ≤ last

end Ranges
end CredentialSchema.Unicode

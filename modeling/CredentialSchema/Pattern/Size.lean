/-!
Sizes of automata. A pattern is matched by two automata, one that reads a text forward and one that
reads it backward, over the bytes of its characters. Each state takes room, each arrow out of a
state with several takes more, and neither automaton may outgrow a limit. Where sets of characters
are combined, the size of the result is an estimate from those of its parts.
-/
namespace CredentialSchema.Pattern

abbrev Range := Nat × Nat

/-- The room in bytes that the automata of a pattern take. -/
structure Size where
  forward : Nat
  backward : Nat
deriving DecidableEq, Repr

namespace Size

instance : Add Size := ⟨fun a b => ⟨a.forward + b.forward, a.backward + b.backward⟩⟩

instance : HMul Nat Size Size := ⟨fun n a => ⟨n * a.forward, n * a.backward⟩⟩

def both (n : Nat) : Size := ⟨n, n⟩

def none : Size := both 0

def state : Nat := 32

def arrow : Nat := 8

def leap : Nat := 4

def limit : Nat := 10 * 1024 * 1024

/-- The room of the states at the start and at the end of every automaton. -/
def frame : Size := ⟨208, 144⟩

def fits (s : Size) : Bool :=
  (s + frame).forward ≤ limit && (s + frame).backward ≤ limit

end Size

/-- The ranges of bytes that spell the numbers of a range with `rest` six-bit digits after the
first one. -/
def digitRanges : (rest : Nat) → Range → List (List Range)
  | 0, (low, high) => [[(low, high)]]
  | rest + 1, (low, high) =>
    let unit := Nat.pow 64 (rest + 1)
    let full := List.replicate (rest + 1) (0, 63)
    let between (first last : Nat) : List (List Range) :=
      if first ≤ last then [(first, last) :: full] else []
    let inside (digit : Nat) (low high : Nat) : List (List Range) :=
      (digitRanges rest (low, high)).map ((digit, digit) :: ·)
    if low % unit = 0 ∧ high % unit = unit - 1 then between (low / unit) (high / unit)
    else if low / unit = high / unit then inside (low / unit) (low % unit) (high % unit)
    else
      let (before, first) :=
        if low % unit = 0 then ([], low / unit)
        else (inside (low / unit) (low % unit) (unit - 1), low / unit + 1)
      if high % unit = unit - 1 then before ++ between first (high / unit)
      else
        before ++ (if first < high / unit then between first (high / unit - 1) else []) ++
          inside (high / unit) 0 (high % unit)

/-- The lengths of characters in bytes, less one, each with its characters and what marks their
first byte. -/
def lengths : List (Nat × Range × Nat) := [
  (0, (0, 0x7F), 0), (1, (0x80, 0x7FF), 0xC0), (2, (0x800, 0xD7FF), 0xE0),
  (2, (0xE000, 0xFFFF), 0xE0), (3, (0x10000, 0x10FFFF), 0xF0)]

def sequences (r : Range) : List (List Range) :=
  lengths.flatMap fun (rest, (least, greatest), lead) =>
    let low := max r.1 least
    let high := min r.2 greatest
    if high < low then []
    else (digitRanges rest (low, high)).map fun
      | (a, b) :: more => (lead + a, lead + b) :: more
      | [] => []

/-- The sets of endings that sequences may go on with, from their start to a depth. -/
def endings : (depth : Nat) → List (List Range) → List (List (List Range))
  | 0, ss => [ss]
  | depth + 1, ss =>
    ss :: ((ss.filterMap List.head?).eraseDups.flatMap fun r =>
      endings depth (ss.filterMap fun
        | a :: more => if a = r then some more else none
        | [] => none))

/-- The size of the automata for one character out of some ranges in order. Forward, what has the
same endings is one state; backward, what has the same beginning is. -/
def rangesSize (ranges : List Range) : Size :=
  if ranges.all fun r => r.2 < 0x80 then
    .both (2 * Size.state + ranges.length * Size.arrow)
  else
    let ss := ranges.flatMap sequences
    let states := (endings 4 ss).eraseDups.filter (!·.isEmpty)
    let beginnings :=
      (ss.flatMap fun s => (List.range s.length).map fun n => s.take (n + 1)).eraseDups
    { forward := (states.map fun ends =>
        Size.state + (ends.filterMap List.head?).eraseDups.length * Size.arrow).foldr (· + ·) 0
      backward := (beginnings.length + 2) * Size.state + ss.length * Size.leap }

end CredentialSchema.Pattern

import CredentialSchema.Unicode.CombiningClass
import CredentialSchema.Unicode.Decomposition
import Std.Data.HashMap

/-!
Canonical composition: texts that look the same get the same characters. A text is decomposed,
the marks after each character are put in the order of their classes, and pairs are composed
again. The syllables of Korean are composed by arithmetic.
-/
namespace CredentialSchema.Unicode

def syllableParts? (c : Char) : Option (List Char) :=
  let n := c.toNat - 0xAC00
  if 0xAC00 ≤ c.toNat ∧ n < 11172 then
    let tail := n % 28
    some (.ofNat (0x1100 + n / 588) :: .ofNat (0x1161 + n % 588 / 28) ::
      if tail = 0 then [] else [.ofNat (0x11A7 + tail)])
  else none

/-- The full decomposition of a character, through at most so many steps. -/
def decomposed : (steps : Nat) → Char → List Char
  | 0, c => [c]
  | steps + 1, c =>
    match syllableParts? c with
    | some cs => cs
    | none =>
      match (pairs.get? c).or (singles.get? c) with
      | some cs => cs.flatMap (decomposed steps)
      | none => [c]

def decompositionSteps : Nat := 5

def orderedRun (cs : List Char) : List Char :=
  (cs.map fun c => (combiningClass c, c)).mergeSort (fun a b => a.1 ≤ b.1) |>.map (·.2)

/-- Puts the marks of a text in order; `run` holds those since the last other character. -/
def ordered (run : List Char) : List Char → List Char
  | [] => orderedRun run
  | c :: cs =>
    if combining.contains c then ordered (run ++ [c]) cs
    else orderedRun run ++ c :: ordered [] cs

def pairCode (a b : Char) : Nat := a.toNat * 0x110000 + b.toNat

def compositions : Std.HashMap Nat Char :=
  .ofList (pairs.toList.filterMap fun (c, image) =>
    match image with
    | [a, b] => some (pairCode a b, c)
    | _ => none)

def syllable? (a b : Char) : Option Char :=
  let leading := a.toNat - 0x1100
  let vowel := b.toNat - 0x1161
  let tail := b.toNat - 0x11A7
  let block := a.toNat - 0xAC00
  if 0x1100 ≤ a.toNat ∧ leading < 19 ∧ 0x1161 ≤ b.toNat ∧ vowel < 21 then
    some (.ofNat (0xAC00 + (leading * 21 + vowel) * 28))
  else if 0xAC00 ≤ a.toNat ∧ block < 11172 ∧ block % 28 = 0 ∧ 0x11A7 < b.toNat ∧ tail < 28 then
    some (.ofNat (a.toNat + tail))
  else none

def compose? (a b : Char) : Option Char := (syllable? a b).or compositions[pairCode a b]?

/-- Composes the characters after a starter. `between` holds the marks since then that did not
compose, and `last` the class of the last of them. -/
def composeFrom (starter : Char) (between : List Char) (last : Option Nat) :
    List Char → List Char
  | [] => starter :: between
  | c :: cs =>
    let own := combiningClass c
    let isBlocked := last.any fun n => n = 0 ∨ own ≤ n
    match if isBlocked then none else compose? starter c with
    | some d => composeFrom d between last cs
    | none =>
      if own = 0 then starter :: between ++ composeFrom c [] none cs
      else composeFrom starter (between ++ [c]) (some own) cs

def composed : List Char → List Char
  | [] => []
  | c :: cs =>
    if combining.contains c then c :: composed cs else composeFrom c [] none cs

/-- The canonical composition of a text. -/
def normalized (cs : List Char) : List Char :=
  if cs.all (·.toNat < 0x80) then cs
  else composed (ordered [] (cs.flatMap (decomposed decompositionSteps)))

end CredentialSchema.Unicode

/-!
Punycode: labels of any characters in letters, digits and hyphens. The characters of ASCII
come first. The others follow in the order of their code points, each as the count of
insertions passed over since the one before, in digits of base thirty-six whose thresholds
adapt to the size of the counts.
-/
namespace CredentialSchema.Punycode

def digitChar (d : Nat) : Char := .ofNat (if d < 26 then 97 + d else 22 + d)

/-- The least value that leaves another digit to follow, at a weight under a bias. -/
def threshold (bias weight : Nat) : Nat := max 1 (min 26 (weight - bias))

theorem threshold_pos (bias weight : Nat) : 0 < threshold bias weight :=
  Nat.lt_of_lt_of_le Nat.zero_lt_one (Nat.le_max_left ..)

/-- A count in digits, the least significant first. -/
def digits (bias weight count : Nat) : List Char :=
  let t := threshold bias weight
  if count < t then [digitChar count]
  else digitChar (t + (count - t) % (36 - t)) ::
    digits bias (weight + 36) ((count - t) / (36 - t))
termination_by count
decreasing_by
  have positive := threshold_pos bias weight
  have quotient := Nat.div_le_self (count - threshold bias weight) (36 - threshold bias weight)
  omega

/-- Divides a count until it is small, adding to the bias for each division. -/
def settle (bias count : Nat) : Nat :=
  if 455 < count then settle (bias + 36) (count / 35)
  else bias + 36 * count / (count + 38)
termination_by count

/-- The bias after a count, when so many characters are written. -/
def adapt (first : Bool) (count written : Nat) : Nat :=
  let count := if first then count / 700 else count / 2
  settle 0 (count + count / written)

structure State where
  /-- How many characters of the label are written. -/
  written : Nat
  /-- The insertions passed over since the last digit. -/
  count : Nat := 0
  bias : Nat := 72
  first : Bool := true
  output : List Char := []
deriving DecidableEq, Repr

/-- Passes one character of a label while those of one code point are inserted. -/
def pass (point : Nat) (s : State) (c : Char) : State :=
  if c.toNat < point then { s with count := s.count + 1 }
  else if c.toNat = point then
    { written := s.written + 1
      bias := adapt s.first s.count (s.written + 1)
      first := false
      output := s.output ++ digits s.bias 36 s.count }
  else s

/-- Inserts the characters of the given code points, in ascending order from the next one. -/
def insertAll (label : List Char) : (next : Nat) → List Nat → State → State
  | _, [], s => s
  | next, point :: points, s =>
    let s := { s with count := s.count + (point - next) * (s.written + 1) }
    let s := label.foldl (pass point) s
    insertAll label (point + 1) points { s with count := s.count + 1 }

def insertions (label : List Char) : List Char :=
  let points := ((label.filter (0x80 ≤ ·.toNat)).map Char.toNat).mergeSort.eraseDups
  (insertAll label 0x80 points { written := (label.filter (·.toNat < 0x80)).length }).output

def encode (label : List Char) : List Char :=
  let basic := label.filter (·.toNat < 0x80)
  (if basic.isEmpty then [] else basic ++ ['-']) ++ insertions label

def digit? (c : Char) : Option Nat :=
  if c.isDigit then some (c.toNat - 22)
  else if c.isAlpha then some (c.toLower.toNat - 97)
  else none

def countLimit : Nat := 0xFFFFFFFF

def count? (bias weight factor total : Nat) : List Char → Option (Nat × List Char)
  | [] => none
  | c :: cs => do
    let d ← digit? c
    let t := threshold bias weight
    let total := total + d * factor
    if countLimit < total then none
    else if d < t then some (total, cs)
    else count? bias (weight + 36) (factor * (36 - t)) total cs

def insertions? (fuel : Nat) (point place bias : Nat) (first : Bool) (label : List Char)
    (cs : List Char) : Option (List Char) :=
  match fuel, cs with
  | _, [] => some label
  | 0, _ => none
  | fuel + 1, cs => do
    let (count, rest) ← count? bias 36 1 0 cs
    let size := label.length + 1
    let next := point + (place + count) / size
    let spot := (place + count) % size
    let label := label.take spot ++ .ofNat next :: label.drop spot
    if next < 0x80 || !next.isValidChar then none
    else insertions? fuel next (spot + 1) (adapt first count size) false label rest

def decode? (cs : List Char) : Option (List Char) :=
  let tail := (cs.reverse.takeWhile (· != '-')).reverse
  let basic := cs.take (cs.length - tail.length - 1)
  if cs.any (0x80 ≤ ·.toNat) then none
  else insertions? tail.length 0x80 0 72 true basic tail

end CredentialSchema.Punycode

import CredentialSchema.Unicode.Bidirectional
import CredentialSchema.Unicode.Joining
import CredentialSchema.Unicode.Mark
import CredentialSchema.Unicode.Normalization
import CredentialSchema.Url.DomainTable
import CredentialSchema.Url.Percent
import CredentialSchema.Url.Punycode

/-!
Domain names. Each character is replaced by what it stands for (its lower case, its plain form),
the text is composed, and a label that still holds characters outside ASCII is written in
Punycode. A label that comes in Punycode must stand for one that this would write. Labels with
joiners out of place, with a mark first, or with letters of both directions are no names.
-/
namespace CredentialSchema.Domain

/-- What the characters of a text stand for, composed; none if one of them is refused. -/
def fold? (cs : List Char) : Option (List Char) :=
  if cs.any refused.contains then none
  else some (Unicode.normalized ((cs.filter (!ignored.contains ·)).flatMap fun c =>
    if c.toNat < 0x80 then [c.toLower] else (mapped.get? c).getD [c]))

def isForbidden (c : Char) : Bool :=
  Percent.control c || " #%/:<>?@[\\]^|".toList.contains c

def isJoiner (c : Char) : Bool := c.toNat = 0x200C || c.toNat = 0x200D

/-- Whether the joiner at a place is in order: after a sign that joins consonants, or, for the one
that keeps letters apart, between letters that would join. `before` is reversed. -/
def joins (before : List Char) (joiner : Char) (after : List Char) : Bool :=
  let isOver (c : Char) : Bool := Unicode.joining c = .transparent
  let left := (before.dropWhile isOver).head?.map Unicode.joining
  let right := (after.dropWhile isOver).head?.map Unicode.joining
  before.head?.any (fun c => Unicode.combiningClass c = Unicode.viramaClass) ||
    (joiner.toNat = 0x200C && (left = some .left || left = some .dual) &&
      (right = some .right || right = some .dual))

/-- Whether every joiner of a label is in order; `before` is reversed. -/
def hasJoinersInPlace (before : List Char) : List Char → Bool
  | [] => true
  | c :: cs => (!isJoiner c || joins before c cs) && hasJoinersInPlace (c :: before) cs

/-- Whether a label is in order, the direction of writing left aside. -/
def isValidLabel (cs : List Char) : Bool :=
  !cs.head?.any Unicode.isMark && hasJoinersInPlace [] cs

def isBidirectional (cs : List Char) : Bool :=
  cs.any fun c =>
    let d := Unicode.direction c
    d = .rightToLeft || d = .arabicNumber

/-- Whether a label of such a name keeps to the direction of its first letter: one from left to
right has no letter of the other kind and ends in a letter or a digit, one from right to left
has no letter from left to right, ends in a letter or a digit and has digits of one kind. -/
def keepsDirection (cs : List Char) : Bool :=
  let ds := cs.map Unicode.direction
  let last := (ds.reverse.dropWhile (· = .mark)).head?
  match ds.head? with
  | none => true
  | some .leftToRight =>
    ds.all (fun d => d = .leftToRight || d = .europeanNumber || d = .mark || d = .neutral) &&
      (last = some .leftToRight || last = some .europeanNumber)
  | some .rightToLeft =>
    ds.all (· != .leftToRight) && last != some .neutral &&
      !(ds.contains .europeanNumber && ds.contains .arabicNumber)
  | some _ => false

def escape : List Char := "xn--".toList

def unescaped? (cs : List Char) : Option (List Char) :=
  if escape.isPrefixOf cs then do
    let label ← Punycode.decode? (cs.drop escape.length)
    if label.all (·.toNat < 0x80) || fold? label != some label || label.contains '.' then none
    else some label
  else some cs

def written (cs : List Char) : List Char :=
  if cs.all (·.toNat < 0x80) then cs else escape ++ Punycode.encode cs

def ofBytes? (bytes : List UInt8) : Option (List Char) := do
  let text ← String.fromUTF8? ⟨bytes.toArray⟩
  let name ← fold? text.toList
  let labels ← (name.splitOn '.').mapM unescaped?
  let isMixed := labels.any isBidirectional
  if name.any isForbidden || !labels.all isValidLabel ||
      (isMixed && !labels.all keepsDirection) then none
  else some (['.'].intercalate (labels.map written))

end CredentialSchema.Domain

import CredentialSchema.Document.Plain
import CredentialSchema.Yaml.Character

/-!
The style of a scalar. A string is written plainly where that reads back as the same string, else
between single quotes, as a literal block if it has line feeds, or between double quotes where
nothing else can hold it.
-/
namespace CredentialSchema.Yaml

inductive ScalarStyle
  | plain
  | single
  | literal
  | double
deriving DecidableEq, Repr

/-- Whether some character after the first means something where it stands: a colon before a
gap, a number sign after one. -/
def hasInnerMark : (before : Char) → List Char → Bool
  | _, [] => false
  | before, c :: cs =>
    (c == ':' && startsGap cs) || (c == '#' && isGap before) || hasInnerMark c cs

def hasMark (cs : List Char) : Bool :=
  match cs with
  | [] => false
  | c :: rest =>
    "---".toList.isPrefixOf cs || "...".toList.isPrefixOf cs || isStartMark c ||
      ((c == '?' || c == ':' || c == '-') && startsGap rest) || hasInnerMark c rest

def hasPair (p q : Char → Bool) : List Char → Bool
  | a :: b :: cs => (p a && q b) || hasPair p q (b :: cs)
  | _ => false

structure Fitness where
  plain : Bool
  single : Bool
  literal : Bool
deriving DecidableEq, Repr

/-- Which styles can hold a text. A blank beside a line break would be folded away, and one at the
end would go unseen. -/
def fitness (cs : List Char) : Fitness :=
  let isSpace (c : Char) : Bool := c == ' '
  let hasSpecial := cs.any (!isPrintable ·)
  let spaceBreak := hasPair isSpace isBreak cs
  let breakSpace := hasPair isBreak isSpace cs
  let isEdge (c : Char) : Bool := isSpace c || isBreak c
  { plain := !(hasSpecial || cs.any isBreak || hasMark cs || cs.head?.any isEdge ||
      cs.getLast?.any isEdge)
    single := !(hasSpecial || spaceBreak || breakSpace)
    literal := !cs.isEmpty && !(hasSpecial || spaceBreak || cs.getLast?.any isSpace) }

/-- Whether a text without quotes would be read as something else than a string. -/
def isAmbiguous (s : String) : Bool :=
  Plain.isZeroPadded s.toList || match Plain.resolve s with
    | .text _ => false
    | _ => true

def styleOf (s : String) : ScalarStyle :=
  let cs := s.toList
  let fit := fitness cs
  if cs.contains '\n' then if fit.literal then .literal else .double
  else if !isAmbiguous s && fit.plain then .plain
  else if fit.single then .single
  else .double

/-- How long a key on one line may be, in bytes. -/
def keyLimit : Nat := 128

def isShortKey (s : String) : Bool :=
  !s.toList.any isBreak && s.utf8ByteSize ≤ keyLimit

end CredentialSchema.Yaml

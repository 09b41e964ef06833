import CredentialSchema.Pattern.CharacterSet

/-!
Expressions: what a pattern of the extended dialect says. The parts of an expression that neither
look around nor refer back are matched by automata, and the others by trying.
-/
namespace CredentialSchema.Pattern

inductive Expression
  | empty
  /-- A place between characters; word boundaries are found by trying. -/
  | place (isTried : Bool)
  /-- Any character, or any but a line break. -/
  | any (lineBreaks : Bool)
  | literal (c : Char) (ignoresCase : Bool)
  | set (s : CharacterSet) (ignoresCase : Bool)
  | sequence (es : List Expression)
  | choice (es : List Expression)
  /-- A group that can be referred to by its number. -/
  | group (number : Nat) (e : Expression)
  | around (isBehind : Bool) (e : Expression)
  | repeated (low : Nat) (high : Option Nat) (e : Expression)
  | reference (number : Nat)
  /-- Whether a group took part in the match. -/
  | matched (number : Nat)
  /-- An expression that keeps its first match. -/
  | atomic (e : Expression)
  /-- Something about the match so far: where it starts, or where the one before it ended. -/
  | progress
  | conditional (condition yes no : Expression)
deriving Repr

namespace Expression

def isEmpty : Expression → Bool
  | .empty => true
  | _ => false

def isTarget : Expression → Bool
  | .empty | .place _ | .around .. => false
  | _ => true

/-- How long the matches of an expression are: at least so many characters, or exactly. -/
structure Span where
  least : Nat
  isFixed : Bool

def Span.zero : Span := ⟨0, true⟩

def Span.then (a b : Span) : Span := ⟨a.least + b.least, a.isFixed && b.isFixed⟩

def Span.or (a b : Span) : Span :=
  ⟨min a.least b.least, a.isFixed && b.isFixed && a.least == b.least⟩

mutual
def span : Expression → Span
  | .empty | .place _ | .around .. | .matched _ | .progress => .zero
  | .any _ | .literal .. | .set .. => ⟨1, true⟩
  | .sequence es => spanOfAll es
  | .choice es => spanOfEither es
  | .group _ e | .atomic e => span e
  | .repeated low high e => ⟨low * (span e).least, (span e).isFixed && high == some low⟩
  | .reference _ => ⟨0, false⟩
  | .conditional c yes no => ((span c).then (span yes)).or (span no)

def spanOfAll : List Expression → Span
  | [] => .zero
  | e :: es => (span e).then (spanOfAll es)

def spanOfEither : List Expression → Span
  | [] => .zero
  | [e] => span e
  | e :: es => (span e).or (spanOfEither es)
end

mutual
/-- Whether an expression is matched by trying; a group that one of some references leads to is. -/
def isTried (references : List Nat) : Expression → Bool
  | .empty | .any _ | .literal .. | .set .. => false
  | .place isTried => isTried
  | .sequence es | .choice es => areTried references es
  | .group n e => references.contains n || isTried references e
  | .repeated _ _ e => isTried references e
  | .around .. | .reference _ | .matched _ | .atomic _ | .progress | .conditional .. => true

def areTried (references : List Nat) : List Expression → Bool
  | [] => false
  | e :: es => isTried references e || areTried references es
end

mutual
/-- Whether everything that is looked for behind a place has a fixed length, each alternative by
itself. -/
def looksBehindFixed : Expression → Bool
  | .sequence es | .choice es => allLookBehindFixed es
  | .around isBehind e =>
    looksBehindFixed e && (!isBehind || (span e).isFixed || match e with
      | .choice es => es.all fun e => (span e).isFixed
      | _ => false)
  | .group _ e | .repeated _ _ e | .atomic e => looksBehindFixed e
  | .conditional c yes no => looksBehindFixed c && looksBehindFixed yes && looksBehindFixed no
  | .empty | .place _ | .any _ | .literal .. | .set .. => true
  | .reference _ | .matched _ | .progress => true

def allLookBehindFixed : List Expression → Bool
  | [] => true
  | e :: es => looksBehindFixed e && allLookBehindFixed es
end

/-- The parts of a row that automata match: those of its start that have a fixed length, and those
of its end; between them stand expressions that are matched one by one. An automaton for the end is
not tried again with another length, so inside something tried only parts of a fixed length are
left to it. -/
def divideRow (references : List Nat) (isInside : Bool) (es : List Expression) :
    List Expression × List Expression × List Expression :=
  let isSteady (e : Expression) : Bool := (span e).isFixed && !isTried references e
  let start := es.takeWhile isSteady
  let rest := es.dropWhile isSteady
  let isLast (e : Expression) : Bool := !isTried references e && (!isInside || (span e).isFixed)
  let finish := (rest.reverse.takeWhile isLast).reverse
  (start, rest.take (rest.length - finish.length), finish)

/-- The rows of expressions that automata match in an expression; `isInside` says that it stands
inside something that is tried. -/
def automata (references : List Nat) : (fuel : Nat) → (isInside : Bool) → Expression →
    List (List Expression)
  | 0, _, _ => []
  | fuel + 1, isInside, e =>
    if !isInside && !isTried references e then [[e]]
    else match e with
    | .sequence es =>
      let (start, middle, finish) := divideRow references isInside es
      start :: finish :: middle.flatMap (automata references fuel true)
    | .choice es => es.flatMap (automata references fuel isInside)
    | .group _ e => automata references fuel isInside e
    | .repeated low high e =>
      let isOptional := low == 0 && high == some 1
      automata references fuel (isInside || (!isOptional && isTried references e)) e
    | .around _ e | .atomic e => automata references fuel false e
    | .conditional c yes no => [c, yes, no].flatMap (automata references fuel isInside)
    | e => [[e]]

end Expression
end CredentialSchema.Pattern

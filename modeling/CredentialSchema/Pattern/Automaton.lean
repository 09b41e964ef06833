import CredentialSchema.Pattern.Expression
import CredentialSchema.Pattern.Plain

/-!
Automata for expressions. An automaton exists if counts keep the greatest one and do not run down,
if properties are known, and if it keeps the limit of its size; a count repeats the states of what
it counts.
-/
namespace CredentialSchema.Pattern.Expression

def single? (isNarrow : Bool) : Expression → Option Extent
  | .literal c ignoresCase => some ((Extent.ofRanges [(c.toNat, c.toNat)]).foldedIf ignoresCase)
  | .set s ignoresCase => some ((s.extent isNarrow).foldedIf ignoresCase)
  | .any true => some (.ofRanges [(0, 0x10FFFF)])
  | .any false => some (.ofRanges [(0, 9), (11, 0x10FFFF)])
  | _ => none

def isBare : Expression → Bool
  | .empty | .place _ => true
  | .group _ e => isBare e
  | .repeated _ high e => high == some 0 || isBare e
  | .sequence es | .choice es => areBare es
  | _ => false
where
  /-- The same of each of some expressions. -/
  areBare : List Expression → Bool
    | [] => true
    | e :: es => isBare e && areBare es

def forkSize (ways : Nat) : Size := .both (Size.state + ways * Size.leap)

def stateSize : Size := .both Size.state

def repeatedSize (e : Expression) (size : Size) (low : Nat) (high : Option Nat) : Size :=
  if e.isBare then if low = 0 then size + forkSize 2 + stateSize else size
  else match low, high with
    | _, some 0 => stateSize
    | 0, some 1 => size + forkSize 2 + stateSize
    | 0, none =>
      if 0 < (span e).least then size + forkSize 2 else size + 2 * forkSize 2 + stateSize
    | low, none => low * size + forkSize 2
    | low, some high =>
      if low = high then low * size
      else low * size + stateSize + (high - low) * (size + forkSize 2)

mutual
def size (isNarrow : Bool) : Expression → Size
  | .literal c false => c.utf8Size * stateSize
  | .literal c true =>
    let folded := (Extent.ofRanges [(c.toNat, c.toNat)]).foldedIf true
    if folded.ranges.length = 1 then c.utf8Size * stateSize else folded.size
  | .any lineBreaks => (((Expression.any lineBreaks).single? isNarrow).map (·.size)).getD .none
  | .set s ignoresCase => ((s.extent isNarrow).foldedIf ignoresCase).size
  | .sequence es => sizeOfAll isNarrow es
  | .choice es =>
    match es.mapM (single? isNarrow) with
    | some extents => (extents.foldr Extent.union (.ofRanges [])).size
    | none => sizeOfAll isNarrow es + forkSize es.length + stateSize
  | .group _ e => size isNarrow e + ⟨2 * Size.state, 0⟩
  | .repeated low high e => repeatedSize e (size isNarrow e) low high
  | .empty | .place _ => stateSize
  | .around .. | .reference _ | .matched _ | .atomic _ | .progress | .conditional .. => .none

def sizeOfAll (isNarrow : Bool) : List Expression → Size
  | [] => .none
  | e :: es => size isNarrow e + sizeOfAll isNarrow es
end

mutual
/-- Whether automata can have the counts, sets and properties of an expression. -/
def isSound : Expression → Bool
  | .set s _ => s.isKnown && s.height ≤ Plain.depthLimit
  | .sequence es | .choice es => areSound es
  | .group _ e => isSound e
  | .repeated low high e =>
    isSound e && low ≤ Plain.countLimit && high.all fun h => low ≤ h && h ≤ Plain.countLimit
  | _ => true

def areSound : List Expression → Bool
  | [] => true
  | e :: es => isSound e && areSound es
end

def haveAutomaton (isNarrow : Bool) (es : List Expression) : Bool :=
  areSound es && (sizeOfAll isNarrow es).fits

end CredentialSchema.Pattern.Expression

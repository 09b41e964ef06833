import CredentialSchema.Yaml.Block
import CredentialSchema.Yaml.Name
import CredentialSchema.Yaml.Quoted
import CredentialSchema.Yaml.Unquoted

/-!
Tokens of YAML. Indentation becomes tokens of its own, which open and close block collections.
A key is known for one only when its colon is met, so each place where a key could begin is
remembered, and its tokens are put in there afterwards. Such a key stands on one line and is at
most 1024 characters long.
-/
namespace CredentialSchema.Yaml

/-- How a scalar was written, as far as its meaning hangs on it. -/
inductive Presentation
  | unquoted
  | quoted
  | block
deriving DecidableEq, Repr

inductive Token
  | directive (d : Directive)
  | documentStart
  | documentEnd
  | sequenceStart
  | mappingStart
  /-- The end of a block collection. -/
  | blockEnd
  | flowSequenceStart
  | flowSequenceEnd
  | flowMappingStart
  | flowMappingEnd
  | item
  | separator
  | key
  | value
  | alias (name : String)
  | anchor (name : String)
  | tag (t : Tag)
  | scalar (how : Presentation) (text : String)
deriving DecidableEq, Repr

structure KeyStart where
  /-- How many tokens stand before it. -/
  before : Nat
  index : Nat
  line : Nat
  column : Nat
  /-- Whether nothing else may begin there. -/
  isRequired : Bool
deriving Repr

structure Scan where
  place : Cursor
  tokens : Array Token := #[]
  /-- The column of the innermost block collection. -/
  indent : Int := -1
  outer : List Int := []
  /-- A key that may have begun, for every level of brackets, and one for outside of them. -/
  keys : List (Option KeyStart) := [none]
  mayBeginKey : Bool := true

namespace Scan

def flowLevel (s : Scan) : Nat := s.keys.length - 1

def inFlow (s : Scan) : Bool := s.flowLevel != 0

def push (s : Scan) (t : Token) : Scan := { s with tokens := s.tokens.push t }

def pushOver (s : Scan) (t : Token) (n : Nat) : Scan :=
  { s.push t with place := s.place.skip n }

/-- Forgets a key that may have begun on this level; it must not have been required. -/
def dropKey? (s : Scan) : Option Scan :=
  match s.keys with
  | some k :: ks => if k.isRequired then none else some { s with keys := none :: ks }
  | _ => some s

def saveKey? (s : Scan) : Option Scan :=
  if s.mayBeginKey then
    s.dropKey?.map fun s =>
      { s with keys := some {
          before := s.tokens.size
          index := s.place.index
          line := s.place.line
          column := s.place.column
          isRequired := !s.inFlow && s.indent == s.place.column } :: s.keys.drop 1 }
  else some s

def dropStaleKeys? (s : Scan) : Option Scan := do
  let isStale (k : KeyStart) : Bool :=
    k.line < s.place.line || k.index + 1024 < s.place.index
  if s.keys.any fun k => k.any fun k => isStale k && k.isRequired then none
  return { s with keys := s.keys.map fun k => k.filter (!isStale ·) }

def openBlock (s : Scan) (column : Nat) (t : Token) (at? : Option Nat) : Scan :=
  if s.inFlow || column ≤ s.indent then s
  else
    { s with
      indent := column
      outer := s.indent :: s.outer
      tokens := s.tokens.insertIdxIfInBounds (at?.getD s.tokens.size) t }

def closeBlocks (column : Int) (indent : Int) (outer : List Int) (tokens : Array Token) :
    Int × List Int × Array Token :=
  match outer with
  | [] => (indent, [], tokens)
  | o :: os =>
    if column < indent then closeBlocks column o os (tokens.push .blockEnd)
    else (indent, o :: os, tokens)

def unroll (s : Scan) (column : Int) : Scan :=
  if s.inFlow then s
  else
    let (indent, outer, tokens) := closeBlocks column s.indent s.outer s.tokens
    { s with indent, outer, tokens }

/-- Passes over blanks, comments and line breaks. A tab may not stand where a key could. -/
def skipIdle (fuel : Nat) (s : Scan) : Scan :=
  match fuel with
  | 0 => s
  | fuel + 1 =>
    let mark := s.place.column == 0 && s.place.peek?.any fun c => c.toNat == 0xFEFF
    let place := if mark then s.place.skip 1 else s.place
    let place := place.skipWhile fun c =>
      c == ' ' || (c == '\t' && (s.inFlow || !s.mayBeginKey))
    let place := if place.peek? == some '#' then place.skipWhile (!isBreak ·) else place
    match place.takeBreak? with
    | some (_, next) =>
      skipIdle fuel { s with place := next, mayBeginKey := s.mayBeginKey || !s.inFlow }
    | none => { s with place }

def between? (s : Scan) (t : Token) (place : Cursor) : Option Scan := do
  let s ← (s.unroll (-1)).dropKey?
  return { s.push t with place, mayBeginKey := false }

def openFlow? (s : Scan) (t : Token) : Option Scan :=
  s.saveKey?.map fun s => { s.pushOver t 1 with keys := none :: s.keys, mayBeginKey := true }

def closeFlow? (s : Scan) (t : Token) : Option Scan :=
  s.dropKey?.map fun s =>
    { s.pushOver t 1 with
      keys := if s.inFlow then s.keys.drop 1 else s.keys
      mayBeginKey := false }

def blockMark? (s : Scan) (collection mark : Token) : Option Scan := do
  if !s.inFlow && !s.mayBeginKey then none
  let s ← (s.openBlock s.place.column collection none).dropKey?
  return { s.pushOver mark 1 with mayBeginKey := mark == .item || !s.inFlow }

/-- The colon after a key, whose tokens are put in where it began. -/
def value? (s : Scan) : Option Scan :=
  match s.keys with
  | some k :: ks =>
    let s := { s with tokens := s.tokens.insertIdxIfInBounds k.before .key, keys := none :: ks }
    let s := s.openBlock k.column .mappingStart (some k.before)
    some { s.pushOver .value 1 with mayBeginKey := false }
  | _ =>
    if !s.inFlow && !s.mayBeginKey then none
    else
      let s := s.openBlock s.place.column .mappingStart none
      some { s.pushOver .value 1 with mayBeginKey := !s.inFlow }

def named? (s : Scan) (read : Option (Token × Cursor)) : Option Scan := do
  let s ← s.saveKey?
  let (t, place) ← read
  return { s.push t with place, mayBeginKey := false }

/-- A plain scalar. After one that ends its line a key may begin. -/
def unquotedScalar? (s : Scan) : Option Scan := do
  let s ← s.saveKey?
  let (text, isBroken, place) ←
    unquoted? s.inFlow (s.indent + 1).toNat (s.place.rest.length + 1) (.blanks []) s.place
  return { s.push (.scalar .unquoted (.ofList text)) with place, mayBeginKey := isBroken }

def blockScalar? (s : Scan) : Option Scan := do
  let s ← s.dropKey?
  let (text, place) ← block? s.indent s.place
  return { s.push (.scalar .block (.ofList text)) with place, mayBeginKey := true }

def next? (s : Scan) : Option Scan :=
  let cs := s.place.rest
  let isWord := startsGap (cs.drop 1)
  let atColumnZero := s.place.column == 0
  match cs.head? with
  | none => none
  | some c =>
    if atColumnZero && c == '%' then do
      let (d, place) ← directive? s.place
      s.between? (.directive d) place
    else if s.place.atMarker "---" then s.between? .documentStart (s.place.skip 3)
    else if s.place.atMarker "..." then s.between? .documentEnd (s.place.skip 3)
    else if c == '[' then s.openFlow? .flowSequenceStart
    else if c == '\x7b' then s.openFlow? .flowMappingStart
    else if c == ']' then s.closeFlow? .flowSequenceEnd
    else if c == '\x7d' then s.closeFlow? .flowMappingEnd
    else if c == ',' then
      s.dropKey?.map fun s => { s.pushOver .separator 1 with mayBeginKey := true }
    else if c == '-' && isWord then s.blockMark? .sequenceStart .item
    else if c == '?' && (s.inFlow || isWord) then s.blockMark? .mappingStart .key
    else if c == ':' && (s.inFlow || isWord) then s.value?
    else if c == '*' then s.named? ((anchorName? s.place).map fun (n, p) => (.alias n, p))
    else if c == '&' then s.named? ((anchorName? s.place).map fun (n, p) => (.anchor n, p))
    else if c == '!' then s.named? ((tag? s.inFlow s.place).map fun (t, p) => (.tag t, p))
    else if (c == '|' || c == '>') && !s.inFlow then s.blockScalar?
    else if c == '\'' || c == '"' then
      s.named? ((quoted? c cs.length (s.place.skip 1)).map fun (t, p) =>
        (.scalar .quoted (.ofList t), p))
    else if !isGap c && !isStartMark c then s.unquotedScalar?
    else none

def run? (fuel : Nat) (s : Scan) : Option (Array Token) :=
  match fuel with
  | 0 => none
  | fuel + 1 => do
    let s ← (s.skipIdle (s.place.rest.length + 1)).dropStaleKeys?
    if s.place.rest.isEmpty then
      return (← (s.unroll (-1)).dropKey?).tokens
    (← (s.unroll s.place.column).next?).run? fuel

end Scan

def Token.ofText? (cs : List Char) : Option (List Token) :=
  (Scan.run? (cs.length + 1) { place := { rest := cs } }).map Array.toList

end CredentialSchema.Yaml

import CredentialSchema.Document.Basic
import CredentialSchema.Yaml.Style

/-!
YAML text of documents, in block layout. Members stand one a line, indented by two blanks a
level; the items of a list stand under its key without further indentation. A key that is too
long or has line breaks is marked by a question mark and stands on lines of its own.
-/
namespace CredentialSchema.Yaml

/-- Floats are positional from 1e-5 below 1e16 and always show a point or an exponent. -/
def floatStyle : Decimal.Style where
  least := -5
  most := 16
  wholePoint := true
  exponentPlus := false
  zeroSign := true

def escapeChar (c : Char) : List Char :=
  match c with
  | '"' => ['\\', '"']
  | '\\' => ['\\', '\\']
  | '\x00' => ['\\', '0']
  | '\x07' => ['\\', 'a']
  | '\x08' => ['\\', 'b']
  | '\t' => ['\\', 't']
  | '\n' => ['\\', 'n']
  | '\x0b' => ['\\', 'v']
  | '\x0c' => ['\\', 'f']
  | '\r' => ['\\', 'r']
  | '\x1b' => ['\\', 'e']
  | '\u0085' => ['\\', 'N']
  | '\u2028' => ['\\', 'L']
  | '\u2029' => ['\\', 'P']
  | c =>
    if isPrintable c then [c]
    else
      let digits (width : Nat) := (Text.hexDigits width c.toNat).map Char.toUpper
      if c.toNat < 0x100 then '\\' :: 'x' :: digits 2
      else if c.toNat < 0x10000 then '\\' :: 'u' :: digits 4
      else '\\' :: 'U' :: digits 8

structure Sheet where
  text : String := ""
  column : Nat := 0
  /-- Whether the last thing written needs no blank after it. -/
  isSpaced : Bool := true
  /-- Whether nothing but indentation and marks stands on the line. -/
  isIndenting : Bool := true

namespace Sheet

def put (s : Sheet) (c : Char) : Sheet := { s with text := s.text.push c, column := s.column + 1 }

def putBreak (s : Sheet) (c : Char := '\n') : Sheet :=
  { s with text := s.text.push c, column := 0 }

/-- Goes to an indentation, on a new line if this one has something on it. -/
def goTo (s : Sheet) (indent : Nat) : Sheet :=
  let s := if !s.isIndenting || indent < s.column || (s.column = indent && !s.isSpaced) then
    s.putBreak else s
  let s := (List.range (indent - s.column)).foldl (fun s _ => s.put ' ') s
  { s with isSpaced := true, isIndenting := true }

def mark (s : Sheet) (text : String) (needsSpace staysIndenting : Bool) : Sheet :=
  let s := if needsSpace && !s.isSpaced then s.put ' ' else s
  let s := text.toList.foldl put s
  { s with isSpaced := false, isIndenting := s.isIndenting && staysIndenting }

def word (s : Sheet) (text : String) : Sheet :=
  let s := if s.isSpaced || text.isEmpty then s else s.put ' '
  { text.toList.foldl put s with isSpaced := false, isIndenting := false }

/-- Writes lines of text, each at an indentation. The line that a break begins is indented when
its first character comes; `isNew` tells that this is such a line. -/
def lines (s : Sheet) (indent : Nat) (isNew : Bool) : List Char → Bool × Sheet
  | [] => (isNew, s)
  | c :: cs =>
    if isBreak c then { s.putBreak c with isIndenting := true }.lines indent true cs
    else
      let s := if isNew then s.goTo indent else s
      { s.put c with isIndenting := false }.lines indent false cs

def single (s : Sheet) (indent : Nat) (text : String) : Sheet :=
  let doubled := text.toList.flatMap fun c => if c == '\'' then [c, c] else [c]
  let (isNew, s) := (s.mark "'" true false).lines indent false doubled
  (if isNew then s.goTo indent else s).mark "'" false false

def double (s : Sheet) (text : String) : Sheet :=
  s.mark (.ofList ('"' :: text.toList.flatMap escapeChar ++ ['"'])) true false

/-- The marks after the bar of a literal block: the indentation, where the text begins with a
blank or a break, and what becomes of the breaks at its end. -/
def literalHints (cs : List Char) : String :=
  let indentation := if cs.head?.any fun c => c == ' ' || isBreak c then "2" else ""
  let ending := match (cs.reverse.takeWhile isBreak).length with
    | 0 => "-"
    | 1 => if cs.length = 1 then "+" else ""
    | _ => "+"
  indentation ++ ending

def literal (s : Sheet) (indent : Nat) (text : String) : Sheet :=
  let s := (s.mark "|" true false).mark (literalHints text.toList) false false
  ({ s.putBreak with isSpaced := true, isIndenting := true }.lines indent true text.toList).2

def string (s : Sheet) (indent : Nat) (text : String) : Sheet :=
  match styleOf text with
  | .plain => s.word text
  | .single => s.single indent text
  | .literal => s.literal indent text
  | .double => s.double text

def numberText : Json.Number → String
  | .integer n => toString n
  | .float x => x.write floatStyle

def boundText : Bound → String
  | .finite x => x.write floatStyle
  | .infinite false => ".inf"
  | .infinite true => "-.inf"
  | .undefined => ".nan"

def inside (indent : Option Nat) : Nat := (indent.map (· + 2)).getD 0

mutual
/-- Writes a node inside a collection at an indentation. The items of a list that is the value of
a key on the same line need no indentation of their own. -/
def node (s : Sheet) (indent : Option Nat) (isValue : Bool) : Document → Sheet
  | .null => s.word "null"
  | .bool b => s.word (toString b)
  | .number n => s.word (numberText n)
  | .special b => s.word (boundText b)
  | .text t => s.string (indent.getD 0 + 2) t
  | .plain t => s.word t
  | .sequence [] => (s.mark "[" true false).mark "]" false false
  | .sequence (d :: ds) =>
    items s (if isValue && !s.isIndenting then indent.getD 0 else inside indent) (d :: ds)
  | .mapping [] => (s.mark "\x7b" true false).mark "\x7d" false false
  | .mapping (m :: ms) => members s (inside indent) (m :: ms)
  | .unreadable => s.word "null"

def items (s : Sheet) (indent : Nat) : List Document → Sheet
  | [] => s
  | d :: ds => items (node ((s.goTo indent).mark "-" true true) (some indent) false d) indent ds

def members (s : Sheet) (indent : Nat) : List (Document × Document) → Sheet
  | [] => s
  | (k, d) :: ms =>
    let s := s.goTo indent
    let s :=
      if (k.name?).all isShortKey then (node s (some indent) true k).mark ":" false false
      else
        ((node (s.mark "?" true true) (some indent) true k).goTo indent).mark ":" true true
    members (node s (some indent) true d) indent ms
end

end Sheet

def write (d : Document) : String := (Sheet.goTo (Sheet.node {} none false d) 0).text

end CredentialSchema.Yaml

import CredentialSchema.Document.Basic
import CredentialSchema.Number.Decimal
import CredentialSchema.Text.Digits

/-!
Plain scalars: the types that an unquoted scalar may be read as. Where a type is asked for,
the scalar has only to spell a value of it; where none is, `resolve` takes the first of null,
boolean, integer, float and text that fits.
-/
namespace CredentialSchema.Plain

/-- Spellings of null; an empty scalar is null too. -/
def isNull (s : String) : Bool := ["", "~", "null", "Null", "NULL"].contains s

def bool? (s : String) : Option Bool :=
  if ["true", "True", "TRUE"].contains s then some true
  else if ["false", "False", "FALSE"].contains s then some false
  else none

def strip? (start : String) (cs : List Char) : Option (List Char) :=
  if start.toList.isPrefixOf cs then some (cs.drop start.length) else none

def digitIn? (base : Nat) (c : Char) : Option Nat := (Text.hexDigit? c).filter (· < base)

def digits? (base : Nat) (cs : List Char) : Option Nat :=
  if cs.isEmpty then none else (cs.mapM (digitIn? base)).map (Text.ofDigits base)

/-- Digits after a leading zero, with or without a sign, are text and not a number. -/
def isZeroPadded (cs : List Char) : Bool :=
  let body := match cs with
    | '+' :: r => r
    | '-' :: r => r
    | _ => cs
  match body with
  | '0' :: d :: ds => (d :: ds).all Char.isDigit
  | _ => false

/-- An unsigned integer, in decimal or with a base marked by `0x`, `0o` or `0b`. -/
def natural? (s : String) : Option Nat :=
  let cs := s.toList
  let body := (strip? "+" cs).getD cs
  let marked := [("0x", 16), ("0o", 8), ("0b", 2)].findSome? fun (mark, base) =>
    (strip? mark body).bind (digits? base)
  marked.or (if isZeroPadded cs then none else digits? 10 body)

def negative? (s : String) : Option Int :=
  match s.toList with
  | '-' :: body =>
    let marked := [("0x", 16), ("0o", 8), ("0b", 2)].findSome? fun (mark, base) =>
      (strip? mark body).bind (digits? base)
    (marked.or (if isZeroPadded body then none else digits? 10 body)).map fun n => -(n : Int)
  | _ => none

/-- A decimal literal: digits with a point among or beside them, and an exponent. -/
def decimal? (cs : List Char) : Option Binary64 := do
  let (negative, cs) := match cs with
    | '-' :: r => (true, r)
    | '+' :: r => (false, r)
    | _ => (false, cs)
  let whole := cs.takeWhile Char.isDigit
  let rest := cs.dropWhile Char.isDigit
  let (fraction, rest) := match rest with
    | '.' :: r => (r.takeWhile Char.isDigit, r.dropWhile Char.isDigit)
    | _ => ([], rest)
  if whole.isEmpty && fraction.isEmpty then none else
  let power ← match rest with
    | [] => some (0 : Int)
    | c :: r =>
      if c == 'e' || c == 'E' then
        match r with
        | '-' :: ds => (digits? 10 ds).map fun n => -(n : Int)
        | '+' :: ds => (digits? 10 ds).map fun n => (n : Int)
        | ds => (digits? 10 ds).map fun n => (n : Int)
      else none
  let digits ← (whole ++ fraction).mapM Text.digit?
  Decimal.toBinary64? negative ⟨Text.ofDigits 10 digits, power - fraction.length⟩

def bound? (s : String) : Option Bound :=
  let cs := s.toList
  let body := (strip? "+" cs).getD cs
  if body.length < cs.length ∧ (body.head? = some '+' ∨ body.head? = some '-') then none
  else if [".inf", ".Inf", ".INF"].contains (String.ofList body) then some (.infinite false)
  else if ["-.inf", "-.Inf", "-.INF"].contains s then some (.infinite true)
  else if [".nan", ".NaN", ".NAN"].contains s then some .undefined
  else (decimal? body).map .finite

def fits (width : Nat) (n : Int) : Bool :=
  n.natAbs < Nat.pow 2 width && (0 ≤ n || n.natAbs ≤ Nat.pow 2 (width - 1))

/-- The document that a plain scalar stands for where no type is asked for. -/
def resolve (s : String) : Document :=
  if isNull s then .null
  else match bool? s with
  | some b => .bool b
  | none =>
    let integer := ((natural? s).map fun n => (n : Int)).or (negative? s)
    match integer.filter (fits 128) with
    | some n => if fits 64 n then .number (.integer n) else .unreadable
    | none =>
      if isZeroPadded s.toList then .text s
      else match bound? s with
      | some (.finite x) => .number (.float x)
      | some b => .special b
      | none => .text s

end CredentialSchema.Plain

import CredentialSchema.Url.Domain

/-!
Hosts of URLs: a domain in lower case, an IPv4 address in any of its spellings, or an IPv6
address in brackets, each with one written form.
-/
namespace CredentialSchema.Url

inductive Error
  | relativeWithoutBase
  | relativeWithOpaqueBase
  | emptyHost
  | invalidPort
  | invalidIpv4
  | invalidIpv6
  | invalidDomainCharacter
  | invalidDomainName
deriving DecidableEq, Repr

def Error.message : Error → String
  | .relativeWithoutBase => "relative URL without a base"
  | .relativeWithOpaqueBase => "relative URL with a cannot-be-a-base base"
  | .emptyHost => "empty host"
  | .invalidPort => "invalid port number"
  | .invalidIpv4 => "invalid IPv4 address"
  | .invalidIpv6 => "invalid IPv6 address"
  | .invalidDomainCharacter => "invalid domain character"
  | .invalidDomainName => "invalid international domain name"

inductive Host
  | domain (name : String)
  | ipv4 (address : Nat)
  /-- Eight pieces of sixteen bits. -/
  | ipv6 (pieces : List Nat)
deriving DecidableEq, Repr

namespace Host

/-- The value of a part of an IPv4 address in hexadecimal, octal or decimal. -/
def ipv4Number? (cs : List Char) : Option Nat :=
  let digits (base : Nat) (ds : List Char) : Option Nat :=
    if ds.isEmpty then some 0
    else (ds.mapM fun c => (Text.hexDigit? c).filter (· < base)).map (Text.ofDigits base)
  match cs with
  | [] => none
  | '0' :: 'x' :: ds => digits 16 ds
  | '0' :: 'X' :: ds => digits 16 ds
  | '0' :: d :: ds => digits 8 (d :: ds)
  | ds => digits 10 ds

/-- Whether the last part of a domain is a number, so that all of it has to be an address. -/
def endsInNumber (cs : List Char) : Bool :=
  let parts := (cs.splitOn '.').reverse
  let last := match parts with
    | [] :: p :: _ => p
    | p :: _ => p
    | [] => []
  !last.isEmpty && (last.all Char.isDigit || (ipv4Number? last).isSome)

/-- The address that at most four numbers spell: each but the last is one byte, and the last
fills the rest. -/
def ipv4? (cs : List Char) : Option Nat := do
  let parts := cs.splitOn '.'
  let parts := if parts.getLast? = some [] then parts.dropLast else parts
  if parts.length > 4 then none else
  let numbers ← parts.mapM ipv4Number?
  let last ← numbers.getLast?
  let bytes := numbers.dropLast
  if last < Nat.pow 256 (4 - bytes.length) ∧ bytes.all (· < 256) then
    some (last + Text.ofDigits 256 (bytes ++ List.replicate (4 - bytes.length) 0))
  else none

/-- Dotted decimal bytes at the end of an IPv6 address, as two pieces. -/
def embedded? (cs : List Char) : Option (List Nat) := do
  let parts := cs.splitOn '.'
  if parts.length ≠ 4 then none else
  let bytes ← parts.mapM fun p =>
    if p.length > 1 ∧ p.head? = some '0' then none
    else (Text.decimal? p).filter (· < 256)
  match bytes with
  | [a, b, c, d] => some [256 * a + b, 256 * c + d]
  | _ => none

def pieces? : List (List Char) → Option (List Nat)
  | [] => some []
  | [p] =>
    if p.contains '.' then embedded? p
    else if p.length ≤ 4 then (Text.hexadecimal? p).map fun n => [n] else none
  | p :: ps => do
    if p.length > 4 then none else
    return (← Text.hexadecimal? p) :: (← pieces? ps)

def splitDouble : List Char → Option (List Char × List Char)
  | ':' :: ':' :: cs => some ([], cs)
  | c :: cs => (splitDouble cs).map fun (l, r) => (c :: l, r)
  | [] => none

/-- An IPv6 address, in which one double colon may stand for a run of zeros. -/
def ipv6? (cs : List Char) : Option (List Nat) := do
  let part (cs : List Char) := if cs.isEmpty then some [] else pieces? (cs.splitOn ':')
  match splitDouble cs with
  | some (l, r) =>
    if l.contains '.' then none else
    let left ← part l
    let right ← part r
    if left.length + right.length ≤ 7 then
      some (left ++ List.replicate (8 - left.length - right.length) 0 ++ right)
    else none
  | none => (part cs).filter (·.length == 8)

def zeroRun (ps : List Nat) : Nat := (ps.takeWhile (· == 0)).length

def longestRun (ps : List Nat) : Option (Nat × Nat) :=
  (List.range ps.length).foldl (fun best i =>
    let run := zeroRun (ps.drop i)
    let longest := (best.map (·.2)).getD 1
    if run > longest then some (i, run) else best) none

def piecesText (ps : List Nat) : String :=
  ":".intercalate (ps.map fun p => .ofList (Nat.toDigits 16 p))

def text : Host → String
  | .domain name => name
  | .ipv4 a =>
    ".".intercalate ([a >>> 24, (a >>> 16) % 256, (a >>> 8) % 256, a % 256].map toString)
  | .ipv6 ps =>
    match longestRun ps with
    | none => "[" ++ piecesText ps ++ "]"
    | some (i, n) => "[" ++ piecesText (ps.take i) ++ "::" ++ piecesText (ps.drop (i + n)) ++ "]"

def bracketed? (cs : List Char) : Except Error Host :=
  if cs.getLast? = some ']' then
    match ipv6? (cs.drop 1).dropLast with
    | some ps => .ok (.ipv6 ps)
    | none => .error .invalidIpv6
  else .error .invalidIpv6

def special (cs : List Char) : Except Error Host :=
  if cs.head? = some '[' then bracketed? cs
  else match Domain.ofBytes? (Percent.decodeBytes cs) with
  | none => .error .invalidDomainName
  | some name =>
    if name.isEmpty then .error .emptyHost
    else if endsInNumber name then
      match ipv4? name with
      | some a => .ok (.ipv4 a)
      | none => .error .invalidIpv4
    else .ok (.domain (.ofList name))

def general (cs : List Char) : Except Error Host :=
  if cs.head? = some '[' then bracketed? cs
  else if cs.any fun c => "\x00\t\n\r #/:<>?@[\\]^|".toList.contains c then
    .error .invalidDomainCharacter
  else .ok (.domain (.ofList (Percent.encode Percent.control cs)))

end Host
end CredentialSchema.Url

import CredentialSchema.Text.Digits

/-!
Percent encoding. Each part of a URL has a set of characters that are encoded in it; a
character outside ASCII always is, byte by byte of its UTF-8 form. Nothing that is encoded
already is encoded twice, except in a segment that is added to a path, where the percent sign
itself is in the set.
-/
namespace CredentialSchema.Percent

def encodeByte (b : UInt8) : List Char :=
  ['%', Text.hexCharUpper (b.toNat / 16), Text.hexCharUpper (b.toNat % 16)]

def encodeChar (set : Char → Bool) (c : Char) : List Char :=
  if c.toNat ≥ 0x80 || set c then (String.utf8EncodeChar c).flatMap encodeByte else [c]

def encode (set : Char → Bool) (cs : List Char) : List Char := cs.flatMap (encodeChar set)

def control (c : Char) : Bool := c.toNat < 0x20 || c.toNat == 0x7f

def fragment (c : Char) : Bool := control c || " \"<>`".toList.contains c

/-- The set for queries; a special scheme adds the apostrophe. -/
def query (special : Bool) (c : Char) : Bool :=
  control c || " \"#<>".toList.contains c || (special && c == '\'')

def path (c : Char) : Bool := fragment c || "#?\x7b\x7d".toList.contains c

def userinfo (c : Char) : Bool := path c || "/:;=@[\\]^|".toList.contains c

/-- The set for segments added to a path: every separator and the percent sign itself. -/
def segment (special : Bool) (c : Char) : Bool :=
  path c || c == '/' || c == '%' || (special && c == '\\')

def decodeBytes : List Char → List UInt8
  | '%' :: a :: b :: cs =>
    match Text.hexDigit? a, Text.hexDigit? b with
    | some x, some y => UInt8.ofNat (16 * x + y) :: decodeBytes cs
    | _, _ => '%'.toUInt8 :: decodeBytes (a :: b :: cs)
  | c :: cs => String.utf8EncodeChar c ++ decodeBytes cs
  | [] => []

/-- Encodes one character of a query value: letters, digits and four marks stay, and a space
is a plus sign. -/
def formChar (c : Char) : List Char :=
  if c.isAlphanum || "*-._".toList.contains c then [c]
  else if c == ' ' then ['+']
  else (String.utf8EncodeChar c).flatMap encodeByte

def form (s : String) : String := .ofList (s.toList.flatMap formChar)

end CredentialSchema.Percent

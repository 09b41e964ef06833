import CredentialSchema.Json.Value
import CredentialSchema.Number.Decimal
import CredentialSchema.Text.Digits

/-!
JSON text of values: compact, and laid out with one member a line. Member order is kept.
Text outside ASCII is written as it is; only the quote, the backslash and the control
characters below U+0020 are escaped.
-/
namespace CredentialSchema.Json

def floatStyle : Decimal.Style where
  least := -5
  most := 16
  wholePoint := true
  exponentPlus := true
  zeroSign := true

def escapeChar (c : Char) : List Char :=
  match c with
  | '"' => ['\\', '"']
  | '\\' => ['\\', '\\']
  | '\n' => ['\\', 'n']
  | '\r' => ['\\', 'r']
  | '\t' => ['\\', 't']
  | '\x08' => ['\\', 'b']
  | '\x0c' => ['\\', 'f']
  | c => if c.toNat < 0x20 then ['\\', 'u'] ++ Text.hexDigits 4 c.toNat else [c]

def quote (s : String) : String := .ofList ('"' :: s.toList.flatMap escapeChar ++ ['"'])

def Number.write : Number → String
  | .integer n => toString n
  | .float x => x.write floatStyle

namespace Value

mutual
def compact : Value → String
  | .null => "null"
  | .bool true => "true"
  | .bool false => "false"
  | .number n => n.write
  | .string s => quote s
  | .array vs => "[" ++ ",".intercalate (compactItems vs) ++ "]"
  | .object ms => "\x7b" ++ ",".intercalate (compactMembers ms) ++ "\x7d"

def compactItems : List Value → List String
  | [] => []
  | v :: vs => compact v :: compactItems vs

def compactMembers : List (String × Value) → List String
  | [] => []
  | (k, v) :: ms => (quote k ++ ":" ++ compact v) :: compactMembers ms
end

def newline (level : Nat) : String := .ofList ('\n' :: List.replicate (2 * level) ' ')

def layout (level : Nat) (opening closing : String) (entries : List String) : String :=
  if entries.isEmpty then opening ++ closing
  else opening ++ newline (level + 1) ++ ("," ++ newline (level + 1)).intercalate entries ++
    newline level ++ closing

mutual
def prettyAt (level : Nat) : Value → String
  | .null => "null"
  | .bool true => "true"
  | .bool false => "false"
  | .number n => n.write
  | .string s => quote s
  | .array vs => layout level "[" "]" (prettyItems (level + 1) vs)
  | .object ms => layout level "\x7b" "\x7d" (prettyMembers (level + 1) ms)

def prettyItems (level : Nat) : List Value → List String
  | [] => []
  | v :: vs => prettyAt level v :: prettyItems level vs

def prettyMembers (level : Nat) : List (String × Value) → List String
  | [] => []
  | (k, v) :: ms => (quote k ++ ": " ++ prettyAt level v) :: prettyMembers level ms
end

def pretty (v : Value) : String := prettyAt 0 v

end Value
end CredentialSchema.Json

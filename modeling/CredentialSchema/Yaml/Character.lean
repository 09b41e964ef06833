/-!
The characters of YAML: which may stand in a text, which are written as they are, which separate
words and which break lines.
-/
namespace CredentialSchema.Yaml

def isAllowed (c : Char) : Bool :=
  let n := c.toNat
  n == 9 || n == 10 || n == 13 || (0x20 ≤ n && n ≤ 0x7E) || n == 0x85 ||
    (0xA0 ≤ n && n != 0xFFFE && n != 0xFFFF)

def isPrintable (c : Char) : Bool :=
  let n := c.toNat
  n == 0x0A || (0x20 ≤ n && n ≤ 0x7E) ||
    (0xA0 ≤ n && n != 0xFEFF && n != 0xFFFE && n != 0xFFFF)

def isBlank (c : Char) : Bool := c == ' ' || c == '\t'

def isBreak (c : Char) : Bool :=
  c == '\n' || c == '\r' || c.toNat == 0x85 || c.toNat == 0x2028 || c.toNat == 0x2029

def isGap (c : Char) : Bool := isBlank c || isBreak c

/-- What a line break stands for: the two separators stand for themselves, any other break for a
line feed. -/
def breakText (c : Char) : Char := if c.toNat == 0x2028 || c.toNat == 0x2029 then c else '\n'

def startsGap (cs : List Char) : Bool := cs.head?.all isGap

def startsBreak (cs : List Char) : Bool := cs.head?.all isBreak

def isFlowMark (c : Char) : Bool := ",[]\x7b\x7d".toList.contains c

def isStartMark (c : Char) : Bool := isFlowMark c || "#&*!|>'\"%@`".toList.contains c

def isNameChar (c : Char) : Bool := c.isAlphanum || c == '-' || c == '_'

end CredentialSchema.Yaml

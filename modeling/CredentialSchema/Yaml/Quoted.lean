import CredentialSchema.Text.Digits
import CredentialSchema.Yaml.Cursor

/-!
Quoted scalars. Between single quotes only the quote itself is special, and it is written twice;
between double quotes a backslash begins an escape. Gaps are folded in both.
-/
namespace CredentialSchema.Yaml

def shortEscapes : List (Char × Nat) := [
  ('0', 0), ('a', 7), ('b', 8), ('t', 9), ('\t', 9), ('n', 10), ('v', 11), ('f', 12), ('r', 13),
  ('e', 27), (' ', 32), ('"', 34), ('/', 47), ('\\', 92), ('N', 0x85), ('_', 0xA0),
  ('L', 0x2028), ('P', 0x2029)]

def escapeWidths : List (Char × Nat) := [('x', 2), ('u', 4), ('U', 8)]

/-- The character of an escape, after its backslash, and how many characters it takes there. -/
def escape? (cs : List Char) : Option (Char × Nat) := do
  let c ← cs.head?
  match shortEscapes.lookup c with
  | some n => some (.ofNat n, 1)
  | none =>
    let width ← escapeWidths.lookup c
    let digits := (cs.drop 1).take width
    let n ← if digits.length = width then Text.hexadecimal? digits else none
    if n.isValidChar then some (.ofNat n, width + 1) else none

def quoted? (quote : Char) (fuel : Nat) (c : Cursor) : Option (List Char × Cursor) :=
  match fuel with
  | 0 => none
  | fuel + 1 =>
    let withGap (g : Gap) (c : Cursor) : Option (List Char × Cursor) := do
      let (g, c) ← g.read? 0 (c.rest.length + 1) c
      if c.atDocumentMarker then none else
      let (s, c) ← quoted? quote fuel c
      return (g.text ++ s, c)
    match c.rest with
    | [] => none
    | d :: ds =>
      if isGap d then withGap (.blanks []) c
      else if d == quote then
        if quote == '\'' && ds.head? == some quote then
          (quoted? quote fuel (c.skip 2)).map fun (s, c) => (quote :: s, c)
        else some ([], c.skip 1)
      else if d == '\\' && quote == '"' then
        if ds.head?.any isBreak then withGap (.breaks none []) (c.skip 1).skipBreak
        else do
          let (e, n) ← escape? ds
          let (s, c) ← quoted? quote fuel (c.skip (n + 1))
          return (e :: s, c)
      else (quoted? quote fuel (c.skip 1)).map fun (s, c) => (d :: s, c)

end CredentialSchema.Yaml

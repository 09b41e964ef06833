/-!
Digits: reading and writing numbers in base ten and sixteen. Only the ASCII digits count.
-/
namespace CredentialSchema.Text

def digit? (c : Char) : Option Nat :=
  if '0' ≤ c ∧ c ≤ '9' then some (c.toNat - 48) else none

def hexDigit? (c : Char) : Option Nat :=
  if '0' ≤ c ∧ c ≤ '9' then some (c.toNat - 48)
  else if 'a' ≤ c ∧ c ≤ 'f' then some (c.toNat - 87)
  else if 'A' ≤ c ∧ c ≤ 'F' then some (c.toNat - 55)
  else none

/-- The number that digits spell in a base, most significant first. -/
def ofDigits (base : Nat) (ds : List Nat) : Nat := ds.foldl (fun n d => base * n + d) 0

def decimal? (cs : List Char) : Option Nat :=
  if cs.isEmpty then none else (cs.mapM digit?).map (ofDigits 10)

def hexadecimal? (cs : List Char) : Option Nat :=
  if cs.isEmpty then none else (cs.mapM hexDigit?).map (ofDigits 16)

def hexChar (n : Nat) : Char := .ofNat (if n < 10 then 48 + n else 87 + n)

def hexCharUpper (n : Nat) : Char := .ofNat (if n < 10 then 48 + n else 55 + n)

def hexDigits : (width : Nat) → Nat → List Char
  | 0, _ => []
  | w + 1, n => hexDigits w (n / 16) ++ [hexChar (n % 16)]

def paddedDigits : (width : Nat) → Nat → List Char
  | 0, _ => []
  | w + 1, n => paddedDigits w (n / 10) ++ [.ofNat (48 + n % 10)]

@[simp] theorem length_hexDigits (w n : Nat) : (hexDigits w n).length = w := by
  induction w generalizing n with
  | zero => rfl
  | succ w ih => simp [hexDigits, ih]

@[simp] theorem length_paddedDigits (w n : Nat) : (paddedDigits w n).length = w := by
  induction w generalizing n with
  | zero => rfl
  | succ w ih => simp [paddedDigits, ih]

end CredentialSchema.Text

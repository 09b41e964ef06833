/-!
Searching a text for another.
-/
namespace CredentialSchema.Text

/-- Whether a list of characters stands somewhere in another, without gaps. -/
def occursIn (part : List Char) : List Char → Bool
  | [] => part.isEmpty
  | c :: cs => part.isPrefixOf (c :: cs) || occursIn part cs

def hasAuthorityMark (s : String) : Bool := occursIn [':', '/', '/'] s.toList

theorem occursIn_iff (part cs : List Char) : occursIn part cs = true ↔ part <:+: cs := by
  induction cs with
  | nil => simp [occursIn]
  | cons c cs ih => simp [occursIn, List.infix_cons_iff, ih]

end CredentialSchema.Text

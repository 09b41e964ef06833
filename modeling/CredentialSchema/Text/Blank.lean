/-!
Blank characters and trimmed text. Blank means the Unicode property White_Space, so a
no-break space is blank and a zero-width space is not. Every text that a user may leave
empty (a title, a category, a catalogue id) is judged by these functions.
-/
namespace CredentialSchema.Text

def isBlank (c : Char) : Bool :=
  let n := c.toNat
  (9 ≤ n && n ≤ 13) || n == 0x20 || n == 0x85 || n == 0xA0 || n == 0x1680 ||
    (0x2000 ≤ n && n ≤ 0x200A) || n == 0x2028 || n == 0x2029 || n == 0x202F ||
    n == 0x205F || n == 0x3000

def trimChars (cs : List Char) : List Char :=
  ((cs.dropWhile isBlank).reverse.dropWhile isBlank).reverse

def trim (s : String) : String := .ofList (trimChars s.toList)

/-- Whether a text holds nothing but blanks; the empty text does. -/
def isBlankText (s : String) : Bool := s.toList.all isBlank

private theorem dropWhile_isBlank_eq_nil_iff (cs : List Char) :
    cs.dropWhile isBlank = [] ↔ ∀ c ∈ cs, isBlank c = true := by
  induction cs with
  | nil => simp
  | cons c cs ih => by_cases h : isBlank c = true <;> simp [h, ih]

private theorem mem_dropWhile_isBlank (cs : List Char) (c : Char) (h : c ∈ cs) :
    isBlank c = true ∨ c ∈ cs.dropWhile isBlank := by
  induction cs with
  | nil => cases h
  | cons d cs ih =>
    by_cases hd : isBlank d = true
    · rcases List.mem_cons.1 h with rfl | h
      · exact .inl hd
      · simpa [hd] using ih h
    · exact .inr (by simpa [hd] using h)

theorem trimChars_eq_nil_iff (cs : List Char) :
    trimChars cs = [] ↔ ∀ c ∈ cs, isBlank c = true := by
  simp only [trimChars, List.reverse_eq_nil_iff, dropWhile_isBlank_eq_nil_iff, List.mem_reverse]
  constructor
  · intro h c hc
    exact (mem_dropWhile_isBlank cs c hc).elim id (h c)
  · intro h c hc
    exact h c ((List.dropWhile_sublist _).mem hc)

theorem trim_eq_empty_iff (s : String) : trim s = "" ↔ isBlankText s = true := by
  rw [isBlankText, List.all_eq_true, ← trimChars_eq_nil_iff, trim, String.ofList_eq_empty_iff]

def present (s : Option String) : Option String := s.filter fun s => !isBlankText s

end CredentialSchema.Text

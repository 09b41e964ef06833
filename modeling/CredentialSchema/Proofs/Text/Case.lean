import Mathlib
import CredentialSchema.Text.Blank

/-!
Letter case. In lower case a letter or digit is a small letter or a digit, and these stay as they
are; what is blank stays so.
-/
namespace CredentialSchema.Text

variable {c : Char}

theorem isUpper_iff : c.isUpper = true ↔ 65 ≤ c.toNat ∧ c.toNat ≤ 90 := by
  simp [Char.isUpper, UInt32.le_iff_toNat_le]

theorem isLower_iff : c.isLower = true ↔ 97 ≤ c.toNat ∧ c.toNat ≤ 122 := by
  simp [Char.isLower, UInt32.le_iff_toNat_le]

theorem isLower_toLower (h : c.isUpper = true) : c.toLower.isLower = true := by
  rw [Char.isLower_toLower_eq_isAlpha, Char.isAlpha, h, Bool.true_or]

theorem isAlphanum_toLower (h : c.isAlphanum = true) :
    c.toLower.isLower = true ∨ c.toLower.isDigit = true := by
  rw [Char.isAlphanum, Bool.or_eq_true] at h
  rcases h with letter | digit
  · exact .inl (by rwa [Char.isLower_toLower_eq_isAlpha])
  · have bounds := Char.isDigit_iff_toNat.1 digit
    have digits : '9'.toNat = 57 := rfl
    have small : ¬ c.isUpper = true := by
      rw [isUpper_iff]
      omega
    exact .inr (by rwa [Char.toLower_eq_of_not_isUpper small])

theorem isAlphanum_of_small (h : c.isLower = true ∨ c.isDigit = true) :
    c.isAlphanum = true ∧ c.toLower = c ∧ c ≠ '-' := by
  have bounds := Or.imp isLower_iff.1 Char.isDigit_iff_toNat.1 h
  have digits : '0'.toNat = 48 ∧ '9'.toNat = 57 := ⟨rfl, rfl⟩
  refine ⟨?_, Char.toLower_eq_of_not_isUpper ?_, ?_⟩
  · rcases h with h | h <;> simp [Char.isAlphanum, Char.isAlpha, h]
  · rw [isUpper_iff]
    omega
  · rintro rfl
    have hyphen : '-'.toNat = 45 := rfl
    omega

theorem isBlank_toLower (c : Char) : isBlank c.toLower = isBlank c := by
  by_cases capital : c.isUpper = true
  · have bounds := isUpper_iff.1 capital
    have small := isLower_iff.1 (isLower_toLower capital)
    have letters : isBlank c.toLower = false ∧ isBlank c = false := by
      simp only [isBlank, Bool.or_eq_false_iff, Bool.and_eq_false_iff, beq_eq_false_iff_ne,
        decide_eq_false_iff_not]
      omega
    rw [letters.1, letters.2]
  · rw [Char.toLower_eq_of_not_isUpper capital]

end CredentialSchema.Text

import Mathlib.Algebra.Ring.Nat
import Mathlib.Data.List.Basic
import CredentialSchema.Identifier

/-!
Hexadecimal text. The digits of a number read back as the number, as far as their count goes, and
so a UUID is read back from its hyphenated text.
-/
namespace CredentialSchema

namespace Text

theorem hexDigit?_hexChar : ∀ d < 16, hexDigit? (hexChar d) = some d := by decide

theorem ofDigits_append (base : Nat) (ds : List Nat) (d : Nat) :
    ofDigits base (ds ++ [d]) = base * ofDigits base ds + d := by
  simp [ofDigits]

theorem mapM_hexDigits (w n : Nat) :
    ∃ ds, (hexDigits w n).mapM hexDigit? = some ds ∧ ofDigits 16 ds = n % 16 ^ w := by
  induction w generalizing n with
  | zero => exact ⟨[], rfl, by simp [ofDigits, Nat.mod_one]⟩
  | succ w ih =>
    obtain ⟨ds, read, value⟩ := ih (n / 16)
    have last := hexDigit?_hexChar (n % 16) (Nat.mod_lt n (by decide))
    refine ⟨ds ++ [n % 16], ?_, ?_⟩
    · simp [hexDigits, read, last]
    · rw [ofDigits_append, value, Nat.pow_succ', Nat.mod_mul]
      omega

theorem hexadecimal?_hexDigits {w n : Nat} (some_digit : 0 < w) (fits : n < 16 ^ w) :
    hexadecimal? (hexDigits w n) = some n := by
  obtain ⟨ds, read, value⟩ := mapM_hexDigits w n
  have notEmpty : (hexDigits w n).isEmpty = false := by
    rw [List.isEmpty_eq_false_iff, ← List.length_pos_iff, length_hexDigits]
    exact some_digit
  rw [hexadecimal?, notEmpty, read, Option.map_some, value, Nat.mod_eq_of_lt fits]
  rfl

end Text

namespace Uuid

theorem ofSimple?_hexDigits (u : Uuid) : ofSimple? (Text.hexDigits 32 u.bits.toNat) = some u := by
  have fits : u.bits.toNat < 16 ^ 32 := u.bits.isLt
  rw [ofSimple?, Text.length_hexDigits, if_pos rfl, Text.hexadecimal?_hexDigits (by decide) fits]
  simp

theorem ofHyphenated?_groups {a b c d e : List Char} (ha : a.length = 8) (hb : b.length = 4)
    (hc : c.length = 4) (hd : d.length = 4) (he : e.length = 12) :
    ofHyphenated? (a ++ '-' :: b ++ '-' :: c ++ '-' :: d ++ '-' :: e) =
      ofSimple? (a ++ b ++ c ++ d ++ e) := by
  rw [ofHyphenated?, if_pos]
  · simp (disch := omega) [List.drop_append, List.drop_of_length_le, ha, hb, hc, hd]
  · simp [ha, hb, hc, hd, he]

@[simp] theorem parse?_text (u : Uuid) : parse? u.text = some u := by
  let ds := Text.hexDigits 32 u.bits.toNat
  have count : ds.length = 32 := Text.length_hexDigits 32 _
  have groups : ds.take 8 ++ (ds.drop 8).take 4 ++ (ds.drop 12).take 4 ++ (ds.drop 16).take 4 ++
      ds.drop 20 = ds := by
    have next (n : Nat) : (ds.drop n).take 4 ++ ds.drop (n + 4) = ds.drop n := by
      rw [← List.drop_drop, List.take_append_drop]
    rw [List.append_assoc, next 16, List.append_assoc, next 12, List.append_assoc, next 8,
      List.take_append_drop]
  have read := ofHyphenated?_groups (a := ds.take 8) (b := (ds.drop 8).take 4)
    (c := (ds.drop 12).take 4) (d := (ds.drop 16).take 4) (e := ds.drop 20) (by simp [count])
    (by simp [count]) (by simp [count]) (by simp [count]) (by simp [count])
  rw [groups, ofSimple?_hexDigits] at read
  rw [parse?, text, String.toList_ofList, read]
  simp [count, ds]

end Uuid
end CredentialSchema

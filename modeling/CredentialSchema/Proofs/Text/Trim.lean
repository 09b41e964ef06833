import Mathlib.Data.List.DropRight
import CredentialSchema.Text.Blank

/-!
Trimmed texts. Trimming takes away blanks at both ends, and what it leaves neither begins nor ends
with one; that says what it leaves.
-/
namespace CredentialSchema.Text

variable {c : Char} {a b m cs : List Char}

theorem isBlank_of_head_trimChars (h : (trimChars cs).head? = some c) : isBlank c = false := by
  obtain ⟨rest, split⟩ : trimChars cs <+: cs.dropWhile isBlank := List.rdropWhile_prefix isBlank _
  have first := List.head?_dropWhile_not isBlank cs
  rwa [← split, List.head?_append, h] at first

theorem isBlank_of_getLast_trimChars (h : (trimChars cs).getLast? = some c) :
    isBlank c = false := by
  have last := List.head?_dropWhile_not isBlank (cs.dropWhile isBlank).reverse
  rw [List.getLast?_eq_head?_reverse, trimChars, List.reverse_reverse] at h
  rwa [h] at last

def StartsClear (cs : List Char) : Prop := ∀ c ∈ cs.head?, isBlank c = false

def EndsClear (cs : List Char) : Prop := ∀ c ∈ cs.getLast?, isBlank c = false

theorem StartsClear.append (h : StartsClear a) (h' : StartsClear b) : StartsClear (a ++ b) := by
  intro c first
  rw [List.head?_append, Option.mem_def, Option.or_eq_some_iff] at first
  exact first.elim (h c) fun ⟨_, rest⟩ => h' c rest

theorem StartsClear.append_right (h : StartsClear a) (filled : a ≠ []) :
    StartsClear (a ++ b) := by
  intro c first
  rw [List.head?_append_of_ne_nil _ filled] at first
  exact h c first

theorem StartsClear.map {f : Char → Char} (clear : ∀ c, isBlank c = false → isBlank (f c) = false)
    (h : StartsClear cs) : StartsClear (cs.map f) := by
  intro c first
  rw [List.head?_map, Option.mem_def, Option.map_eq_some_iff] at first
  obtain ⟨d, first, rfl⟩ := first
  exact clear d (h d first)

theorem startsClear_reverse : StartsClear cs.reverse ↔ EndsClear cs := by
  rw [StartsClear, List.head?_reverse, EndsClear]

instance (cs : List Char) : Decidable (StartsClear cs) :=
  decidable_of_iff (cs.head?.all (!isBlank ·) = true) (by
    simp only [StartsClear, Option.all_eq_true, Bool.not_eq_true', Option.mem_def])

instance (cs : List Char) : Decidable (EndsClear cs) := decidable_of_iff _ startsClear_reverse

theorem EndsClear.append (h : EndsClear a) (h' : EndsClear b) : EndsClear (a ++ b) := by
  rw [← startsClear_reverse, List.reverse_append]
  exact (startsClear_reverse.2 h').append (startsClear_reverse.2 h)

theorem EndsClear.append_left (h : EndsClear b) (filled : b ≠ []) : EndsClear (a ++ b) := by
  rw [← startsClear_reverse, List.reverse_append]
  exact (startsClear_reverse.2 h).append_right (mt List.reverse_eq_nil_iff.1 filled)

theorem EndsClear.of_append (h : EndsClear (a ++ b)) : EndsClear b := fun c last =>
  h c (by rw [List.getLast?_append, last, Option.some_or]; rfl)

theorem EndsClear.eq_nil (h : EndsClear cs) (blank : cs.all isBlank = true) : cs = [] := by
  rw [← List.getLast?_eq_none_iff, Option.eq_none_iff_forall_ne_some]
  intro c last
  have dark := List.all_eq_true.1 blank c (List.mem_of_getLast? last)
  rw [h c last] at dark
  contradiction

structure Trimmed (cs : List Char) : Prop where
  start : StartsClear cs
  finish : EndsClear cs

theorem Trimmed.append (h : Trimmed a) (h' : Trimmed b) : Trimmed (a ++ b) :=
  ⟨h.start.append h'.start, h.finish.append h'.finish⟩

theorem Trimmed.map {f : Char → Char} (clear : ∀ c, isBlank c = false → isBlank (f c) = false)
    (h : Trimmed cs) : Trimmed (cs.map f) := by
  refine ⟨h.start.map clear, ?_⟩
  rw [← startsClear_reverse, ← List.map_reverse]
  exact (startsClear_reverse.2 h.finish).map clear

theorem trimmed_trimChars (cs : List Char) : Trimmed (trimChars cs) :=
  ⟨fun _ first => isBlank_of_head_trimChars first, fun _ last => isBlank_of_getLast_trimChars last⟩

theorem exists_trimChars (cs : List Char) :
    ∃ a b, a.all isBlank = true ∧ b.all isBlank = true ∧ cs = a ++ trimChars cs ++ b := by
  refine ⟨cs.takeWhile isBlank, (cs.dropWhile isBlank).rtakeWhile isBlank, List.all_takeWhile,
    List.all_eq_true.2 fun _ mem => List.mem_rtakeWhile_imp mem, ?_⟩
  have rest : trimChars cs ++ (cs.dropWhile isBlank).rtakeWhile isBlank = cs.dropWhile isBlank :=
    List.rdropWhile_append_rtakeWhile
  rw [List.append_assoc, rest, List.takeWhile_append_dropWhile]

theorem dropWhile_isBlank_append (blank : a.all isBlank = true) (h : StartsClear m) :
    (a ++ m).dropWhile isBlank = m := by
  rw [List.dropWhile_append_of_pos (List.all_eq_true.1 blank)]
  cases m with
  | nil => rfl
  | cons c rest =>
    rw [List.dropWhile_cons_of_neg]
    rw [h c rfl]
    exact Bool.false_ne_true

theorem trimChars_append (blank : a.all isBlank = true) (blank' : b.all isBlank = true)
    (h : Trimmed m) : trimChars (a ++ m ++ b) = m := by
  rcases eq_or_ne m [] with rfl | filled
  · rw [trimChars_eq_nil_iff, List.append_nil]
    exact List.all_eq_true.1 (by rw [List.all_append, blank, blank', Bool.and_self])
  · have front : (a ++ (m ++ b)).dropWhile isBlank = m ++ b :=
      dropWhile_isBlank_append blank (h.start.append_right filled)
    have back : (b.reverse ++ m.reverse).dropWhile isBlank = m.reverse :=
      dropWhile_isBlank_append (by rwa [List.all_reverse]) (startsClear_reverse.2 h.finish)
    rw [List.append_assoc, trimChars, front, List.reverse_append, back, List.reverse_reverse]

theorem Trimmed.trimChars_eq (h : Trimmed cs) : trimChars cs = cs := by
  have between := trimChars_append (a := []) (b := []) rfl rfl h
  rwa [List.nil_append, List.append_nil] at between

theorem trimChars_padded (blank : a.all isBlank = true) (blank' : b.all isBlank = true) :
    trimChars (a ++ cs ++ b) = trimChars cs := by
  obtain ⟨p, q, before, after, split⟩ := exists_trimChars cs
  have whole : a ++ cs ++ b = (a ++ p) ++ trimChars cs ++ (q ++ b) := by
    conv_lhs => rw [split]
    simp only [List.append_assoc]
  rw [whole]
  refine trimChars_append ?_ ?_ (trimmed_trimChars cs)
  · rw [List.all_append, blank, before, Bool.and_self]
  · rw [List.all_append, after, blank', Bool.and_self]

theorem trimChars_append_trimmed (h : EndsClear cs) (h' : Trimmed m) :
    trimChars (cs ++ m) = trimChars cs ++ m := by
  obtain ⟨p, q, before, after, split⟩ := exists_trimChars cs
  obtain rfl : q = [] := EndsClear.eq_nil (EndsClear.of_append (split ▸ h)) after
  have whole : cs ++ m = p ++ (trimChars cs ++ m) ++ [] := by
    conv_lhs => rw [split]
    simp only [List.append_assoc, List.append_nil]
  rw [whole]
  exact trimChars_append before rfl ((trimmed_trimChars cs).append h')

theorem exists_trimChars_between (filled : a.all isBlank = false)
    (filled' : b.all isBlank = false) :
    ∃ a' b', ∀ m, trimChars (a ++ m ++ b) = a' ++ m ++ b' := by
  have something {cs : List Char} (h : cs.all isBlank = false) : trimChars cs ≠ [] := by
    rw [Ne, trimChars_eq_nil_iff, ← List.all_eq_true, h]
    exact Bool.false_ne_true
  obtain ⟨p, p', before, -, split⟩ := exists_trimChars a
  obtain ⟨q', q, -, after, split'⟩ := exists_trimChars b
  refine ⟨trimChars a ++ p', q' ++ trimChars b, fun m => ?_⟩
  have kept : Trimmed (trimChars a ++ (p' ++ m ++ q') ++ trimChars b) := by
    refine ⟨?_, (trimmed_trimChars b).finish.append_left (something filled')⟩
    rw [List.append_assoc]
    exact (trimmed_trimChars a).start.append_right (something filled)
  have whole : a ++ m ++ b = p ++ (trimChars a ++ (p' ++ m ++ q') ++ trimChars b) ++ q := by
    conv_lhs => rw [split, split']
    simp only [List.append_assoc]
  rw [whole, trimChars_append before after kept]
  simp only [List.append_assoc]

theorem trimChars_map {f : Char → Char} (blank : ∀ c, isBlank (f c) = isBlank c) :
    trimChars (cs.map f) = (trimChars cs).map f := by
  have same : isBlank ∘ f = isBlank := funext blank
  rw [trimChars, List.dropWhile_map, same, ← List.map_reverse, List.dropWhile_map, same,
    ← List.map_reverse, trimChars]

end CredentialSchema.Text

import CredentialSchema.Proofs.Lists
import CredentialSchema.Proofs.Text.Case
import CredentialSchema.Text.Slug

/-!
Slugs without the scan. The slug of a text is its runs of ASCII letters and digits, in lower case,
with a hyphen between each two. So a slug has only these characters and lone hyphens between them,
and the slug of a text is the text itself exactly if the text has this form already.
-/
namespace CredentialSchema.Text

/-- The runs of letters and digits in a text, as long as they go. -/
def runs (cs : List Char) : List (List Char) :=
  (cs.splitOnP fun c => !c.isAlphanum).filter (· ≠ [])

/-- A text of lower-case letters and digits with lone hyphens between them. -/
structure IsSlug (cs : List Char) : Prop where
  letters : ∀ c ∈ cs, c = '-' ∨ c.isLower = true ∨ c.isDigit = true
  first : cs.head? ≠ some '-'
  last : cs.getLast? ≠ some '-'
  single : cs.IsChain fun a b => ¬ (a = '-' ∧ b = '-')

/-- Some runs, in lower case, each after a hyphen. -/
def hyphened (ws : List (List Char)) : List Char := ws.flatMap fun w => '-' :: w.map Char.toLower

theorem intercalate_eq_hyphened (w : List Char) (ws : List (List Char)) :
    ['-'].intercalate ((w :: ws).map fun w => w.map Char.toLower) =
      w.map Char.toLower ++ hyphened ws := by
  induction ws generalizing w with
  | nil => simp [hyphened]
  | cons w' ws ih =>
    rw [List.map_cons, List.intercalate_cons_of_ne_nil (by simp), ih, hyphened, hyphened,
      List.flatMap_cons]
    simp

/-- What the scan writes in each state of it, by the pieces that the rest of the text falls into.
After a letter the first piece goes on with its run; after a separator it begins one. -/
theorem slugFrom_eq_hyphened (cs : List Char) :
    ∃ w ws, cs.splitOnP (fun c => !c.isAlphanum) = w :: ws ∧
      slugFrom true false cs = w.map Char.toLower ++ hyphened (ws.filter (· ≠ [])) ∧
      slugFrom true true cs = hyphened (runs cs) ∧
      ∀ pending, slugFrom false pending cs =
        ['-'].intercalate ((runs cs).map fun w => w.map Char.toLower) := by
  induction cs with
  | nil => exact ⟨[], [], rfl, rfl, rfl, fun _ => rfl⟩
  | cons c cs ih =>
    obtain ⟨w, ws, pieces, goesOn, between, atStart⟩ := ih
    rw [runs, pieces] at between atStart
    by_cases letter : c.isAlphanum = true
    · have split : (c :: cs).splitOnP (fun c => !c.isAlphanum) = (c :: w) :: ws := by
        simp [List.splitOnP_cons_eq_if_modifyHead, letter, pieces]
      have kept : runs (c :: cs) = (c :: w) :: ws.filter (· ≠ []) := by simp [runs, split]
      refine ⟨c :: w, ws, split, ?_, ?_, fun pending => ?_⟩
      · simp [slugFrom, letter, goesOn]
      · simp [slugFrom, letter, goesOn, kept, hyphened]
      · rw [kept, intercalate_eq_hyphened]
        simp [slugFrom, letter, goesOn]
    · have split : (c :: cs).splitOnP (fun c => !c.isAlphanum) = [] :: w :: ws := by
        simp [List.splitOnP_cons_eq_if_modifyHead, letter, pieces]
      have kept : runs (c :: cs) = (w :: ws).filter (· ≠ []) := by simp [runs, split]
      refine ⟨[], w :: ws, split, ?_, ?_, fun pending => ?_⟩
      · simp [slugFrom, letter, between]
      · simp [slugFrom, letter, between, kept]
      · simp [slugFrom, letter, atStart, kept]

theorem toList_slugify (s : String) : (slugify s).toList =
    ['-'].intercalate ((runs s.toList).map fun w => w.map Char.toLower) := by
  obtain ⟨-, -, -, -, -, atStart⟩ := slugFrom_eq_hyphened s.toList
  rw [slugify, String.toList_ofList, atStart]

variable {w cs : List Char}

theorem of_mem_runs (h : w ∈ runs cs) : w ≠ [] ∧ ∀ c ∈ w, c.isAlphanum = true := by
  obtain ⟨piece, nonempty⟩ := List.mem_filter.1 h
  refine ⟨of_decide_eq_true nonempty, fun c mem => ?_⟩
  simpa using (of_mem_splitOnP piece c mem).2

namespace IsSlug

theorem word (small : ∀ c ∈ w, c.isLower = true ∨ c.isDigit = true) : IsSlug w := by
  have noHyphen : '-' ∉ w := fun mem => (isAlphanum_of_small (small '-' mem)).2.2 rfl
  refine ⟨fun c mem => .inr (small c mem), ?_, ?_, ?_⟩
  · exact fun first => noHyphen (List.mem_of_mem_head? first)
  · exact fun last => noHyphen (List.mem_of_getLast? last)
  · refine List.Pairwise.isChain (List.pairwise_of_forall_mem_list ?_)
    rintro a mem b - ⟨rfl, -⟩
    exact noHyphen mem

theorem behind (h : IsSlug cs) (more : cs ≠ []) (nonempty : w ≠ [])
    (small : ∀ c ∈ w, c.isLower = true ∨ c.isDigit = true) : IsSlug (w ++ '-' :: cs) := by
  have before := word small
  refine ⟨fun c mem => ?_, ?_, ?_, ?_⟩
  · rcases List.mem_append.1 mem with mem | mem
    · exact before.letters c mem
    · rcases List.mem_cons.1 mem with rfl | mem
      · exact .inl rfl
      · exact h.letters c mem
  · rw [List.head?_append_of_ne_nil _ nonempty]
    exact before.first
  · rw [List.getLast?_append_cons, List.getLast?_cons_of_ne_nil more]
    exact h.last
  · refine List.isChain_append.2 ⟨before.single, List.isChain_cons.2 ⟨?_, h.single⟩, ?_⟩
    · rintro c first ⟨-, rfl⟩
      exact h.first first
    · rintro c last d - ⟨rfl, -⟩
      exact before.last last

theorem intercalate {ws : List (List Char)}
    (words : ∀ w ∈ ws, w ≠ [] ∧ ∀ c ∈ w, c.isLower = true ∨ c.isDigit = true) :
    IsSlug (['-'].intercalate ws) ∧ (ws ≠ [] → ['-'].intercalate ws ≠ []) := by
  induction ws with
  | nil => exact ⟨word nofun, absurd rfl⟩
  | cons w ws ih =>
    rw [List.forall_mem_cons] at words
    obtain ⟨⟨nonempty, small⟩, others⟩ := words
    obtain ⟨slug, filled⟩ := ih others
    rcases eq_or_ne ws [] with rfl | more
    · rw [List.intercalate_singleton]
      exact ⟨word small, fun _ => nonempty⟩
    · rw [List.intercalate_cons_of_ne_nil more, List.append_assoc]
      exact ⟨slug.behind (filled more) nonempty small, by simp⟩

/-- Behind a letter the scan copies the rest of a slug: a hyphen in it has a letter behind it. -/
theorem slugFrom_eq (letters : ∀ c ∈ cs, c = '-' ∨ c.isLower = true ∨ c.isDigit = true)
    (last : cs.getLast? ≠ some '-') (single : cs.IsChain fun a b => ¬ (a = '-' ∧ b = '-')) :
    slugFrom true false cs = cs := by
  induction cs with
  | nil => rfl
  | cons c cs ih =>
    rw [List.forall_mem_cons] at letters
    obtain ⟨apart, single⟩ := List.isChain_cons.1 single
    have lastBehind : cs.getLast? ≠ some '-' := by
      intro ends
      exact last (by rw [List.getLast?_cons, ends]; rfl)
    have rest := ih letters.2 lastBehind single
    rcases letters.1 with rfl | small
    · rcases cs with _ | ⟨d, cs⟩
      · exact absurd rfl last
      · have letter : d.isAlphanum = true := by
          rcases letters.2 d List.mem_cons_self with rfl | small
          · exact absurd ⟨rfl, rfl⟩ (apart '-' rfl)
          · exact (isAlphanum_of_small small).1
        have hyphen : '-'.isAlphanum = false := rfl
        rw [slugFrom, if_pos letter, if_neg (by simp)] at rest
        rw [slugFrom, hyphen, if_neg (by simp), slugFrom, if_pos letter, if_pos (by simp), rest]
    · obtain ⟨letter, lower, -⟩ := isAlphanum_of_small small
      rw [slugFrom, if_pos letter, if_neg (by simp), lower, rest]

end IsSlug

theorem isSlug_slugify (s : String) : IsSlug (slugify s).toList := by
  rw [toList_slugify]
  refine (IsSlug.intercalate fun w mem => ?_).1
  obtain ⟨run, listed, rfl⟩ := List.mem_map.1 mem
  obtain ⟨nonempty, letters⟩ := of_mem_runs listed
  refine ⟨by simpa using nonempty, fun c mem => ?_⟩
  obtain ⟨d, inRun, rfl⟩ := List.mem_map.1 mem
  exact isAlphanum_toLower (letters d inRun)

theorem slugify_of_isSlug {s : String} (h : IsSlug s.toList) : slugify s = s := by
  rw [← String.toList_inj, slugify, String.toList_ofList]
  rcases letters : s.toList with _ | ⟨c, cs⟩
  · rfl
  · rw [letters] at h
    have small : c.isLower = true ∨ c.isDigit = true := by
      refine (h.letters c List.mem_cons_self).resolve_left ?_
      rintro rfl
      exact h.first rfl
    obtain ⟨letter, -, -⟩ := isAlphanum_of_small small
    have copied := IsSlug.slugFrom_eq h.letters h.last h.single
    rw [slugFrom, if_pos letter, if_neg (by simp)] at copied ⊢
    exact copied

/-- The slug of a text is its runs of letters and digits, in lower case, joined by hyphens. It has
the form of a slug, and the texts that are their own slugs are those of this form. -/
theorem slugify_exact (s : String) :
    (slugify s).toList = ['-'].intercalate ((runs s.toList).map fun w => w.map Char.toLower) ∧
      IsSlug (slugify s).toList ∧ slugify (slugify s) = slugify s ∧
        (slugify s = s ↔ IsSlug s.toList) := by
  have form := isSlug_slugify s
  refine ⟨toList_slugify s, form, slugify_of_isSlug form, ?_, slugify_of_isSlug⟩
  intro own
  rwa [own] at form

example : slugify "  Proof of   Address!! (v2) " = "proof-of-address-v2" := by decide +kernel

end CredentialSchema.Text

import CredentialSchema.Proofs.Lists
import CredentialSchema.Proofs.Tree.Loading

/-!
What a refused tree is refused for. The check meets the properties in the order of `subtree` and
stops at the first that cannot come after those before it: one of them has its identifier or,
failing that, it has children that its kind does not permit.
-/
namespace CredentialSchema

namespace Property

/-- What is wrong with a property that comes after others. -/
inductive Violates (earlier : List Property) (p : Property) : Violation → Prop
  | repeated : p.id ∈ earlier.map Property.id → Violates earlier p (.duplicateId p.id)
  | forbidden : p.id ∉ earlier.map Property.id →
    ¬ ((p.members ≠ [] → p.kind = .object) ∧ (p.element ≠ none → p.kind = .array)) →
    Violates earlier p (.illegalChildren p.id p.kind)

def Flawless (ps : List Property) : Prop :=
  ∀ earlier p later, ps = earlier ++ p :: later → ∀ v, ¬ Violates earlier p v

/-- What is wrong with the first of some properties that may not come after those before it. -/
def FirstViolation (ps : List Property) (v : Violation) : Prop :=
  ∃ before p after, ps = before ++ p :: after ∧ Flawless before ∧ Violates before p v

theorem scan_eq_error_iff {seen : List PropertyId} {earlier : List Property}
    (same : ∀ id, id ∈ seen ↔ id ∈ earlier.map Property.id) (p : Property) (v : Violation) :
    scan seen p = .error v ↔ Violates earlier p v := by
  have permitted := hasLegalChildren_iff p
  simp only [scan, List.contains_iff_mem, same]
  split
  · next isRepeated =>
    constructor
    · rintro ⟨⟩
      exact .repeated isRepeated
    · rintro (_ | ⟨new, -⟩)
      · rfl
      · exact absurd isRepeated new
  · next new =>
    split
    · next legal =>
      constructor
      · exact nofun
      · rintro (isRepeated | ⟨-, illegal⟩)
        · exact absurd isRepeated new
        · exact absurd (permitted.1 legal) illegal
    · next illegal =>
      constructor
      · rintro ⟨⟩
        exact .forbidden new (mt permitted.2 illegal)
      · rintro (isRepeated | _)
        · exact absurd isRepeated new
        · rfl

theorem mem_iff_of_foldlM_scan {ps : List Property} {seen : List PropertyId}
    (h : ps.foldlM scan [] = .ok seen) (id : PropertyId) :
    id ∈ seen ↔ id ∈ ps.map Property.id := by
  obtain ⟨-, -, -, rfl⟩ := (foldlM_scan_eq_ok_iff ps [] seen).1 h
  simp

theorem exists_foldlM_scan_iff (ps : List Property) :
    (∃ seen, ps.foldlM scan [] = .ok seen) ↔ Flawless ps := by
  constructor
  · rintro ⟨seen, passed⟩ earlier p later rfl v violates
    obtain ⟨distinct, -, permitted, -⟩ := (foldlM_scan_eq_ok_iff _ [] seen).1 passed
    cases violates with
    | repeated isRepeated =>
      rw [List.map_append, List.map_cons] at distinct
      exact (List.nodup_append'.1 distinct).2.2 isRepeated List.mem_cons_self
    | forbidden _ illegal => exact illegal ((hasLegalChildren_iff p).1 (permitted p (by simp)))
  · intro flawless
    cases run : ps.foldlM scan [] with
    | ok seen => exact ⟨seen, rfl⟩
    | error v =>
      obtain ⟨before, p, after, seen, rfl, passed, refused⟩ := foldlM_eq_error_iff.1 run
      have violates := (scan_eq_error_iff (mem_iff_of_foldlM_scan passed) p v).1 refused
      exact absurd violates (flawless before p after rfl v)

theorem foldlM_scan_eq_error_iff (ps : List Property) (v : Violation) :
    ps.foldlM scan [] = .error v ↔ FirstViolation ps v := by
  rw [foldlM_eq_error_iff]
  constructor
  · rintro ⟨before, p, after, seen, split, passed, refused⟩
    exact ⟨before, p, after, split, (exists_foldlM_scan_iff before).1 ⟨seen, passed⟩,
      (scan_eq_error_iff (mem_iff_of_foldlM_scan passed) p v).1 refused⟩
  · rintro ⟨before, p, after, split, flawless, violates⟩
    obtain ⟨seen, passed⟩ := (exists_foldlM_scan_iff before).2 flawless
    exact ⟨before, p, after, seen, split, passed,
      (scan_eq_error_iff (mem_iff_of_foldlM_scan passed) p v).2 violates⟩

end Property

open Property in
/-- Properties make a tree, as they are and at revision zero, exactly if their identifiers are
pairwise distinct and each holds only what its kind permits. They are refused for the first
violation in depth-first order. -/
theorem Tree.ofProperties_exact (roots : List Property) :
    (∀ t, ofProperties roots = .ok t ↔
      t = ⟨roots, 0⟩ ∧ (idsOfList roots).Nodup ∧ Legal roots) ∧
      ∀ v, ofProperties roots = .error v ↔ FirstViolation (subtreeOfList roots) v := by
  refine ⟨ofProperties_eq_ok_iff roots, fun v => ?_⟩
  rw [← foldlM_scan_eq_error_iff, ← checkList_eq_foldlM, ofProperties]
  cases checkList [] roots <;> simp [Except.map]

/-- A text that holds a member is refused for its identifier if that is taken, and else for the
member, whatever the member has for one. -/
example :
    let text (n : Nat) (ms : List Property) : Property :=
      ⟨{ id := ⟨.numbered n⟩, name := "city", kind := .string }, ms, none⟩
    Tree.ofProperties [text 0 [], text 0 [text 1 []]] = .error (.duplicateId ⟨.numbered 0⟩) ∧
      Tree.ofProperties [text 0 [text 0 []]] = .error (.illegalChildren ⟨.numbered 0⟩ .string) :=
  ⟨rfl, rfl⟩

end CredentialSchema

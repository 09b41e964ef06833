import CredentialSchema.Proofs.Property.Subtree
import CredentialSchema.Tree.Loading

/-!
When stored properties load. The check visits them in the order of `subtree`, so it is a scan
of that list which carries the identifiers seen so far. The scan goes through exactly on a
legal forest that repeats no identifier.
-/
namespace CredentialSchema

namespace Property

/-- The check of one property, apart from what is below it. -/
def scan (seen : List PropertyId) (p : Property) : Except Violation (List PropertyId) :=
  if seen.contains p.id then .error (.duplicateId p.id)
  else if p.hasLegalChildren then .ok (p.id :: seen)
  else .error (.illegalChildren p.id p.kind)

mutual
theorem check_eq_foldlM : ∀ (p : Property) (seen : List PropertyId),
    check seen p = (subtree p).foldlM scan seen
  | ⟨d, ms, e⟩, seen => by
    have members := checkList_eq_foldlM ms (d.id :: seen)
    rw [check, subtree, List.foldlM_cons, scan]
    by_cases repeated : seen.contains d.id
    · simp only [if_pos repeated]
      rfl
    · by_cases legal : hasLegalChildren ⟨d, ms, e⟩
      · simp only [if_neg repeated, if_pos legal, members, List.foldlM_append]
        exact congrArg _ (funext fun seen' => checkOption_eq_foldlM e seen')
      · simp only [if_neg repeated, if_neg legal]
        rfl

theorem checkList_eq_foldlM : ∀ (ps : List Property) (seen : List PropertyId),
    checkList seen ps = (subtreeOfList ps).foldlM scan seen
  | [], _ => rfl
  | p :: ps, seen => by
    rw [checkList, subtreeOfList, List.foldlM_append, check_eq_foldlM p seen]
    exact congrArg _ (funext fun seen' => checkList_eq_foldlM ps seen')

theorem checkOption_eq_foldlM : ∀ (e : Option Property) (seen : List PropertyId),
    checkOption seen e = (subtreeOfOption e).foldlM scan seen
  | none, _ => rfl
  | some p, seen => check_eq_foldlM p seen
end

theorem scan_eq_ok_iff (seen seen' : List PropertyId) (p : Property) :
    scan seen p = .ok seen' ↔ p.id ∉ seen ∧ p.hasLegalChildren ∧ seen' = p.id :: seen := by
  simp only [scan, List.contains_iff_mem]
  by_cases repeated : p.id ∈ seen
  · simp [repeated]
  · by_cases legal : p.hasLegalChildren
    · simp [repeated, legal, Eq.comm (a := seen')]
    · simp [repeated, legal]

theorem foldlM_scan_eq_ok_iff (ps : List Property) (seen seen' : List PropertyId) :
    ps.foldlM scan seen = .ok seen' ↔
      (ps.map id).Nodup ∧ (∀ p ∈ ps, p.id ∉ seen) ∧ (∀ p ∈ ps, p.hasLegalChildren) ∧
        seen' = (ps.map id).reverse ++ seen := by
  induction ps generalizing seen with
  | nil => simp [pure, Except.pure, Eq.comm (a := seen')]
  | cons p ps ih =>
    rw [List.foldlM_cons]
    cases first : scan seen p with
    | error v =>
      have rejected : ¬ (p.id ∉ seen ∧ p.hasLegalChildren) := by
        intro accepted
        have ok := (scan_eq_ok_iff seen _ p).2 ⟨accepted.1, accepted.2, rfl⟩
        simp [first] at ok
      constructor
      · exact nofun
      · rintro ⟨-, absent, legal, -⟩
        exact absurd ⟨absent p (by simp), legal p (by simp)⟩ rejected
    | ok next =>
      obtain ⟨absent, legal, rfl⟩ := (scan_eq_ok_iff seen next p).1 first
      have rest := ih (p.id :: seen)
      simp only [bind, Except.bind, rest, List.map_cons, List.nodup_cons,
        List.reverse_cons, List.append_assoc, List.singleton_append, List.mem_cons,
        List.mem_map]
      grind

end Property

theorem Tree.ofProperties_eq_ok_iff (roots : List Property) (t : Tree) :
    ofProperties roots = .ok t ↔
      t = ⟨roots, 0⟩ ∧ (Property.idsOfList roots).Nodup ∧ Property.Legal roots := by
  have legal : Property.Legal roots ↔
      ∀ p ∈ Property.subtreeOfList roots, p.hasLegalChildren := by
    simp only [Property.Legal, Property.hasLegalChildren_iff]
  rw [ofProperties, Property.checkList_eq_foldlM, legal, ← Property.map_id_subtreeOfList]
  have scanned := Property.foldlM_scan_eq_ok_iff (Property.subtreeOfList roots) []
  cases found : (Property.subtreeOfList roots).foldlM Property.scan [] with
  | error v =>
    have rejected := scanned ((Property.subtreeOfList roots).map Property.id).reverse
    simp only [found, reduceCtorEq, false_iff, List.append_nil, List.not_mem_nil,
      not_false_eq_true, implies_true, true_and, and_true] at rejected
    constructor
    · intro loaded
      cases loaded
    · exact fun accepted => absurd accepted.2 rejected
  | ok seen =>
    obtain ⟨distinct, -, permitted, -⟩ := (scanned seen).1 found
    constructor
    · intro loaded
      exact ⟨(Except.ok.inj loaded).symm, distinct, permitted⟩
    · rintro ⟨rfl, -, -⟩
      rfl

end CredentialSchema

import Mathlib.Data.List.Nodup
import CredentialSchema.Property.Basic

/-!
The properties in a property: itself and everything below it, in the depth-first order of all
walks. Identifiers are read off this list, and `Legal` asks of every member of it what its kind
permits. Since a property nests through a list and an option, proofs by induction go through
`induct`, whose hypotheses speak of the members and of the element definition.
-/
namespace CredentialSchema.Property

mutual
def subtree : Property → List Property
  | ⟨d, ms, e⟩ => ⟨d, ms, e⟩ :: (subtreeOfList ms ++ subtreeOfOption e)

def subtreeOfList : List Property → List Property
  | [] => []
  | p :: ps => subtree p ++ subtreeOfList ps

def subtreeOfOption : Option Property → List Property
  | none => []
  | some p => subtree p
end

/-- Every property in a list or below it holds only what its kind permits. -/
def Legal (ps : List Property) : Prop :=
  ∀ p ∈ subtreeOfList ps,
    (p.members ≠ [] → p.kind = .object) ∧ (p.element ≠ none → p.kind = .array)

/-- Each identifier in a list of properties with the catalogue entry recorded for it. -/
def stamps (ps : List Property) : List (PropertyId × Option String) :=
  (subtreeOfList ps).map fun p => (p.id, p.decl.source)

@[elab_as_elim]
theorem induct {motive : Property → Prop}
    (node : ∀ d ms e, (∀ p ∈ ms, motive p) → (∀ p ∈ e, motive p) → motive ⟨d, ms, e⟩) :
    ∀ p, motive p :=
  @Property.rec motive (fun ps => ∀ p ∈ ps, motive p) (fun e => ∀ p ∈ e, motive p)
    (fun d ms e hms he => node d ms e hms he)
    (by simp)
    (fun p ps hp hps q hq => by
      rcases List.mem_cons.mp hq with rfl | hq
      · exact hp
      · exact hps q hq)
    (by simp)
    (fun p hp q hq => by
      obtain rfl : p = q := by simpa using hq
      exact hp)

@[simp] theorem subtreeOfOption_eq (e : Option Property) :
    subtreeOfOption e = subtreeOfList e.toList := by
  cases e <;> simp [subtreeOfOption, subtreeOfList]

@[simp] theorem idsOfOption_eq (e : Option Property) : idsOfOption e = idsOfList e.toList := by
  cases e <;> simp [idsOfOption, idsOfList]

@[simp] theorem subtreeOfList_append (ps qs : List Property) :
    subtreeOfList (ps ++ qs) = subtreeOfList ps ++ subtreeOfList qs := by
  induction ps with
  | nil => rfl
  | cons p ps ih => simp [subtreeOfList, ih]

@[simp] theorem idsOfList_append (ps qs : List Property) :
    idsOfList (ps ++ qs) = idsOfList ps ++ idsOfList qs := by
  induction ps with
  | nil => rfl
  | cons p ps ih => simp [idsOfList, ih]

theorem mem_subtreeOfList {q : Property} {ps : List Property} :
    q ∈ subtreeOfList ps ↔ ∃ p ∈ ps, q ∈ subtree p := by
  induction ps with
  | nil => simp [subtreeOfList]
  | cons p ps ih => simp [subtreeOfList, ih]

theorem mem_subtree_self (p : Property) : p ∈ subtree p := by
  obtain ⟨d, ms, e⟩ := p
  simp [subtree]

theorem subtree_subset (p : Property) : ∀ q ∈ subtree p, subtree q ⊆ subtree p := by
  induction p using induct with
  | node d ms e hms he =>
    intro q mem r below
    simp only [subtree, subtreeOfOption_eq, List.mem_cons, List.mem_append, mem_subtreeOfList]
      at mem ⊢
    rcases mem with rfl | ⟨m, isMember, mem⟩ | ⟨m, isElement, mem⟩
    · simpa [subtree, mem_subtreeOfList] using below
    · exact .inr (.inl ⟨m, isMember, hms m isMember q mem below⟩)
    · exact .inr (.inr ⟨m, isElement, he m (by simpa using isElement) q mem below⟩)

theorem members_subset {p : Property} {ps : List Property} (h : p ∈ subtreeOfList ps) :
    p.members ⊆ subtreeOfList ps := by
  obtain ⟨top, isTop, below⟩ := mem_subtreeOfList.1 h
  obtain ⟨d, ms, e⟩ := p
  intro m isMember
  refine mem_subtreeOfList.2 ⟨top, isTop, subtree_subset top _ below ?_⟩
  have listed : m ∈ subtreeOfList ms := mem_subtreeOfList.2 ⟨m, isMember, mem_subtree_self m⟩
  simp [subtree, listed]

theorem element_subset {p q : Property} {ps : List Property} (h : p ∈ subtreeOfList ps)
    (element : p.element = some q) : q ∈ subtreeOfList ps := by
  obtain ⟨top, isTop, below⟩ := mem_subtreeOfList.1 h
  obtain ⟨d, ms, e⟩ := p
  obtain rfl : e = some q := element
  refine mem_subtreeOfList.2 ⟨top, isTop, subtree_subset top _ below ?_⟩
  have listed : q ∈ subtreeOfOption (some q) := mem_subtree_self q
  simp only [subtree, List.mem_cons, List.mem_append]
  exact .inr (.inr listed)

mutual
theorem map_id_subtree : ∀ p : Property, (subtree p).map id = ids p
  | ⟨d, ms, e⟩ => by
    rw [subtree, ids, List.map_cons, List.map_append, map_id_subtreeOfList ms,
      map_id_subtreeOfOption e]

theorem map_id_subtreeOfList : ∀ ps : List Property, (subtreeOfList ps).map id = idsOfList ps
  | [] => rfl
  | p :: ps => by
    rw [subtreeOfList, idsOfList, List.map_append, map_id_subtree p, map_id_subtreeOfList ps]

theorem map_id_subtreeOfOption : ∀ e : Option Property,
    (subtreeOfOption e).map id = idsOfOption e
  | none => rfl
  | some p => map_id_subtree p
end

theorem id_mem_ids {p : Property} {ps : List Property} (h : p ∈ subtreeOfList ps) :
    p.id ∈ idsOfList ps := by
  rw [← map_id_subtreeOfList]
  exact List.mem_map_of_mem h

@[simp] theorem map_fst_stamps (ps : List Property) :
    (stamps ps).map Prod.fst = idsOfList ps := by
  rw [stamps, List.map_map, ← map_id_subtreeOfList]
  rfl

@[simp] theorem stamps_nil : stamps [] = [] := rfl

@[simp] theorem stamps_append (ps qs : List Property) :
    stamps (ps ++ qs) = stamps ps ++ stamps qs := by simp [stamps]

@[simp] theorem stamps_cons (d : Declaration) (ms : List Property) (e : Option Property)
    (ps : List Property) :
    stamps (⟨d, ms, e⟩ :: ps) =
      (d.id, d.source) :: (stamps ms ++ stamps e.toList) ++ stamps ps := by
  simp [stamps, subtreeOfList, subtree]

@[simp] theorem legal_nil : Legal [] := by simp [Legal, subtreeOfList]

@[simp] theorem legal_append (ps qs : List Property) :
    Legal (ps ++ qs) ↔ Legal ps ∧ Legal qs := by
  rw [Legal, subtreeOfList_append, List.forall_mem_append]
  rfl

theorem legal_cons (d : Declaration) (ms : List Property) (e : Option Property)
    (ps : List Property) :
    Legal (⟨d, ms, e⟩ :: ps) ↔
      ((ms ≠ [] → d.kind = .object) ∧ (e ≠ none → d.kind = .array)) ∧
        Legal ms ∧ Legal e.toList ∧ Legal ps := by
  rw [Legal, subtreeOfList, List.forall_mem_append, subtree, List.forall_mem_cons,
    List.forall_mem_append, subtreeOfOption_eq]
  simp only [and_assoc]
  rfl

theorem legal_of_mem {ps : List Property} (legal : Legal ps) {p : Property} (mem : p ∈ ps) :
    Legal [p] := by
  intro q below
  obtain ⟨top, isTop, below⟩ := mem_subtreeOfList.1 below
  rw [List.mem_singleton.1 isTop] at below
  exact legal q (mem_subtreeOfList.2 ⟨p, mem, below⟩)

theorem hasLegalChildren_iff (p : Property) :
    p.hasLegalChildren = true ↔
      (p.members ≠ [] → p.kind = .object) ∧ (p.element ≠ none → p.kind = .array) := by
  simp [hasLegalChildren, ← or_iff_not_imp_left]

end CredentialSchema.Property

import CredentialSchema.Proofs.Property.Splice

/-!
Forests with a gap. A walk for an identifier that occurs nowhere in front of the gap finds what
fills it: `Reaches` says that what it finds and changes there it finds and changes in the forest.
A new element definition leaves a gap of the same sort one level further down.
-/
namespace CredentialSchema.Property

mutual
theorem find?_eq_none_iff (id : PropertyId) : ∀ p : Property, find? id p = none ↔ id ∉ p.ids
  | ⟨d, ms, e⟩ => by
    have members := findInList?_eq_none_iff id ms
    have element := findInOption?_eq_none_iff id e
    rw [find?, ids]
    by_cases here : d.id = id
    · simp [here]
    · simp only [if_neg here, Option.or_eq_none_iff, members, element, List.mem_cons,
        List.mem_append, not_or]
      exact ⟨fun h => ⟨Ne.symm here, h⟩, fun h => h.2⟩

theorem findInList?_eq_none_iff (id : PropertyId) :
    ∀ ps : List Property, findInList? id ps = none ↔ id ∉ idsOfList ps
  | [] => by simp [findInList?, idsOfList]
  | p :: ps => by
    simp only [findInList?, idsOfList, Option.or_eq_none_iff, find?_eq_none_iff id p,
      findInList?_eq_none_iff id ps, List.mem_append, not_or]

theorem findInOption?_eq_none_iff (id : PropertyId) :
    ∀ e : Option Property, findInOption? id e = none ↔ id ∉ idsOfOption e
  | none => by simp [findInOption?, idsOfOption]
  | some p => find?_eq_none_iff id p
end

mutual
theorem mem_subtree_of_find? {id : PropertyId} : ∀ {p q : Property}, find? id p = some q →
    q ∈ subtree p ∧ q.id = id
  | ⟨d, ms, e⟩, q, found => by
    rw [find?] at found
    rw [subtree]
    by_cases here : d.id = id
    · rw [if_pos here, Option.some.injEq] at found
      exact ⟨by simp [found], found ▸ here⟩
    · rw [if_neg here] at found
      rcases Option.or_eq_some_iff.1 found with inMembers | ⟨-, inElement⟩
      · obtain ⟨mem, same⟩ := mem_subtreeOfList_of_find? inMembers
        exact ⟨by simp [mem], same⟩
      · obtain ⟨mem, same⟩ := mem_subtreeOfOption_of_find? inElement
        exact ⟨List.mem_cons_of_mem _ (List.mem_append_right _ mem), same⟩

theorem mem_subtreeOfList_of_find? {id : PropertyId} : ∀ {ps : List Property} {q : Property},
    findInList? id ps = some q → q ∈ subtreeOfList ps ∧ q.id = id
  | p :: ps, q, found => by
    rw [findInList?] at found
    rw [subtreeOfList, List.mem_append]
    rcases Option.or_eq_some_iff.1 found with first | ⟨-, rest⟩
    · obtain ⟨mem, same⟩ := mem_subtree_of_find? first
      exact ⟨.inl mem, same⟩
    · obtain ⟨mem, same⟩ := mem_subtreeOfList_of_find? rest
      exact ⟨.inr mem, same⟩

theorem mem_subtreeOfOption_of_find? {id : PropertyId} : ∀ {e : Option Property} {q : Property},
    findInOption? id e = some q → q ∈ subtreeOfOption e ∧ q.id = id
  | some _, _, found => mem_subtree_of_find? found
end

/-- Walks for an identifier pass over everything in a forest but the property that fills it. -/
structure Reaches (forest : Property → List Property) (id : PropertyId) : Prop where
  find : ∀ {p q : Property}, find? id p = some q → findInList? id (forest p) = some q
  modify : ∀ {p q : Property} {f : Property → Property}, modify? id f p = some q →
    modifyInList? id f (forest p) = some (forest q)

theorem find?_self (p : Property) : find? p.id p = some p := by
  obtain ⟨d, ms, e⟩ := p
  simp [find?]

theorem modify?_self (f : Property → Property) (p : Property) :
    modify? p.id f p = some (f p) := by
  obtain ⟨d, ms, e⟩ := p
  simp [modify?]

theorem reaches_append {id : PropertyId} {before : List Property} (absent : id ∉ idsOfList before)
    (after : List Property) : Reaches (fun p => before ++ p :: after) id := by
  induction before with
  | nil =>
    refine ⟨fun found => ?_, fun modified => ?_⟩
    · simp [findInList?, found]
    · simp [modifyInList?, modified]
  | cons q before ih =>
    simp only [idsOfList, List.mem_append, not_or] at absent
    obtain ⟨find, modify⟩ := ih absent.2
    have notFound : find? id q = none := (find?_eq_none_iff id q).2 absent.1
    refine ⟨fun found => ?_, fun {_ _ f} modified => ?_⟩
    · simpa [findInList?, notFound] using find found
    · have notModified : modify? id f q = none := (modify?_eq_none_iff id f q).2 notFound
      simpa [modifyInList?, notModified] using modify modified

theorem Reaches.element {forest : Property → List Property} {id : PropertyId}
    (h : Reaches forest id) {d : Declaration} {ms : List Property} (other : d.id ≠ id)
    (absent : id ∉ idsOfList ms) : Reaches (fun p => forest ⟨d, ms, some p⟩) id := by
  have notFound : findInList? id ms = none := (findInList?_eq_none_iff id ms).2 absent
  refine ⟨fun found => h.find ?_, fun {_ _ f} modified => h.modify ?_⟩
  · simpa [find?, other, notFound, findInOption?] using found
  · have notModified : modifyInList? id f ms = none :=
      (modifyInList?_eq_none_iff id f ms).2 notFound
    simp [modify?, other, notModified, modifyInOption?, modified]

end CredentialSchema.Property

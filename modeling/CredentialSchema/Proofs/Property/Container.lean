import CredentialSchema.Proofs.Property.Gap

/-!
The gap behind the last member. Where a new last member is put depends on the forest and on its
holder only, so one gap serves for everything that may be put there, and walks for an identifier
that the forest does not hold reach what fills it.
-/
namespace CredentialSchema.Property

def withMember (q p : Property) : Property := { p with members := p.members ++ [q] }

theorem id_withMember (q p : Property) : (withMember q p).id = p.id := rfl

section Reaches

variable {id : PropertyId} {inner : Property → List Property}

theorem findInList?_append (id : PropertyId) (ps qs : List Property) :
    findInList? id (ps ++ qs) = (findInList? id ps).or (findInList? id qs) := by
  induction ps with
  | nil => rfl
  | cons p ps ih => simp [findInList?, ih, Option.or_assoc]

theorem modifyInList?_append_left {f : Property → Property} {ps qs : List Property}
    (h : modifyInList? id f ps = some qs) (after : List Property) :
    modifyInList? id f (ps ++ after) = some (qs ++ after) := by
  induction ps generalizing qs with
  | nil => simp [modifyInList?] at h
  | cons p ps ih =>
    simp only [modifyInList?, List.cons_append] at h ⊢
    cases hp : modify? id f p with
    | some p' =>
      simp only [hp, Option.some.injEq] at h
      subst h
      rfl
    | none =>
      simp only [hp, Option.map_eq_some_iff] at h
      obtain ⟨qs', hqs, rfl⟩ := h
      simp [ih hqs]

theorem Reaches.append (h : Reaches inner id) (after : List Property) :
    Reaches (fun q => inner q ++ after) id := by
  refine ⟨fun found => ?_, fun modified => modifyInList?_append_left (h.modify modified) after⟩
  simp [findInList?_append, h.find found]

theorem Reaches.cons (h : Reaches inner id) {p : Property} (absent : id ∉ p.ids) :
    Reaches (fun q => p :: inner q) id := by
  have notFound : find? id p = none := (find?_eq_none_iff id p).2 absent
  refine ⟨fun found => ?_, fun {_ _ f} modified => ?_⟩
  · simp [findInList?, notFound, h.find found]
  · have notModified : modify? id f p = none := (modify?_eq_none_iff id f p).2 notFound
    simp [modifyInList?, notModified, h.modify modified]

theorem Reaches.members (h : Reaches inner id) {d : Declaration} (other : d.id ≠ id)
    (e : Option Property) : Reaches (fun q => [⟨d, inner q, e⟩]) id := by
  refine ⟨fun found => ?_, fun modified => ?_⟩
  · simp [findInList?, find?, other, h.find found]
  · simp [modifyInList?, modify?, other, h.modify modified]

theorem Reaches.below {g : Property → Property} (h : Reaches (fun q => [g q]) id)
    {d : Declaration} {ms : List Property} (other : d.id ≠ id) (absent : id ∉ idsOfList ms) :
    Reaches (fun q => [⟨d, ms, some (g q)⟩]) id := by
  have notFound : findInList? id ms = none := (findInList?_eq_none_iff id ms).2 absent
  refine ⟨fun {p q} found => ?_, fun {p q f} modified => ?_⟩
  · have inner : find? id (g p) = some q := by simpa [findInList?] using h.find found
    simp [findInList?, find?, other, notFound, findInOption?, inner]
  · have notModified : modifyInList? id f ms = none :=
      (modifyInList?_eq_none_iff id f ms).2 notFound
    have inner : modify? id f (g p) = some (g q) := by
      have single := h.modify modified
      cases hp : modify? id f (g p) <;> simp_all [modifyInList?]
    simp [modifyInList?, modify?, other, notModified, modifyInOption?, inner]

end Reaches

variable {holder : PropertyId}

mutual
theorem modify?_withMember : ∀ {p r : Property}, find? holder p = some r →
    ∃ g : Property → Property, (∀ q, modify? holder (withMember q) p = some (g q)) ∧
      ∀ id ∉ p.ids, Reaches (fun q => [g q]) id
  | ⟨d, ms, e⟩, r, found => by
    rw [find?] at found
    by_cases here : d.id = holder
    · refine ⟨fun q => ⟨d, ms ++ [q], e⟩, fun q => by simp [modify?, here, withMember], ?_⟩
      intro id absent
      simp only [ids, List.mem_cons, List.mem_append, not_or] at absent
      exact (reaches_append absent.2.1 []).members (Ne.symm absent.1) e
    · rw [if_neg here] at found
      cases inMembers : findInList? holder ms with
      | some r' =>
        obtain ⟨g, modified, reaches⟩ := modifyInList?_withMember inMembers
        refine ⟨fun q => ⟨d, g q, e⟩, fun q => by simp [modify?, here, modified], ?_⟩
        intro id absent
        simp only [ids, List.mem_cons, List.mem_append, not_or] at absent
        exact (reaches id absent.2.1).members (Ne.symm absent.1) e
      | none =>
        rw [inMembers, Option.none_or] at found
        obtain ⟨g, modified, reaches⟩ := modifyInOption?_withMember found
        refine ⟨fun q => ⟨d, ms, some (g q)⟩, fun q => ?_, ?_⟩
        · have notModified : modifyInList? holder (withMember q) ms = none :=
            (modifyInList?_eq_none_iff ..).2 inMembers
          simp [modify?, here, notModified, modified]
        · intro id absent
          simp only [ids, List.mem_cons, List.mem_append, not_or] at absent
          exact (reaches id absent.2.2).below (Ne.symm absent.1) absent.2.1

theorem modifyInList?_withMember : ∀ {ps : List Property} {r : Property},
    findInList? holder ps = some r →
    ∃ g : Property → List Property, (∀ q, modifyInList? holder (withMember q) ps = some (g q)) ∧
      ∀ id ∉ idsOfList ps, Reaches g id
  | p :: ps, r, found => by
    rw [findInList?] at found
    cases first : find? holder p with
    | some r' =>
      obtain ⟨g, modified, reaches⟩ := modify?_withMember first
      refine ⟨fun q => g q :: ps, fun q => by simp [modifyInList?, modified], ?_⟩
      intro id absent
      simp only [idsOfList, List.mem_append, not_or] at absent
      exact (reaches id absent.1).append ps
    | none =>
      rw [first, Option.none_or] at found
      obtain ⟨g, modified, reaches⟩ := modifyInList?_withMember found
      refine ⟨fun q => p :: g q, fun q => ?_, ?_⟩
      · have notModified : modify? holder (withMember q) p = none :=
          (modify?_eq_none_iff ..).2 first
        simp [modifyInList?, notModified, modified]
      · intro id absent
        simp only [idsOfList, List.mem_append, not_or] at absent
        exact (reaches id absent.2).cons absent.1

theorem modifyInOption?_withMember : ∀ {e : Option Property} {r : Property},
    findInOption? holder e = some r →
    ∃ g : Property → Property, (∀ q, modifyInOption? holder (withMember q) e = some (some (g q))) ∧
      ∀ id ∉ idsOfOption e, Reaches (fun q => [g q]) id
  | some p, r, found => by
    obtain ⟨g, modified, reaches⟩ := modify?_withMember found
    exact ⟨g, fun q => by simp [modifyInOption?, modified], reaches⟩
end

mutual
theorem find?_modify? {id : PropertyId} {f : Property → Property} (same : ∀ p, (f p).id = p.id) :
    ∀ {p q r : Property}, modify? id f p = some q → find? id p = some r → find? id q = some (f r)
  | ⟨d, ms, e⟩, q, r, modified, found => by
    rw [modify?] at modified
    rw [find?] at found
    by_cases here : d.id = id
    · simp only [if_pos here, Option.some.injEq] at modified found
      subst modified found
      have sameId : (f ⟨d, ms, e⟩).id = id := (same _).trans here
      rw [← sameId]
      exact find?_self _
    · rw [if_neg here] at modified found
      cases inMembers : modifyInList? id f ms with
      | some ms' =>
        simp only [inMembers, Option.some.injEq] at modified
        subst modified
        obtain ⟨r', found'⟩ : ∃ r', findInList? id ms = some r' := by
          rw [← Option.ne_none_iff_exists']
          intro absent
          simp [(modifyInList?_eq_none_iff id f ms).2 absent] at inMembers
        rw [found', Option.some_or, Option.some.injEq] at found
        subst found
        simp [find?, here, findInList?_modifyInList? same inMembers found']
      | none =>
        simp only [inMembers, Option.map_eq_some_iff] at modified
        obtain ⟨e', inElement, rfl⟩ := modified
        have absent := (modifyInList?_eq_none_iff id f ms).1 inMembers
        rw [absent, Option.none_or] at found
        simp [find?, here, absent, findInOption?_modifyInOption? same inElement found]

theorem findInList?_modifyInList? {id : PropertyId} {f : Property → Property}
    (same : ∀ p, (f p).id = p.id) : ∀ {ps qs : List Property} {r : Property},
    modifyInList? id f ps = some qs → findInList? id ps = some r → findInList? id qs = some (f r)
  | p :: ps, qs, r, modified, found => by
    rw [modifyInList?] at modified
    rw [findInList?] at found
    cases first : modify? id f p with
    | some p' =>
      simp only [first, Option.some.injEq] at modified
      subst modified
      obtain ⟨r', found'⟩ : ∃ r', find? id p = some r' := by
        rw [← Option.ne_none_iff_exists']
        intro absent
        simp [(modify?_eq_none_iff id f p).2 absent] at first
      rw [found', Option.some_or, Option.some.injEq] at found
      subst found
      simp [findInList?, find?_modify? same first found']
    | none =>
      simp only [first, Option.map_eq_some_iff] at modified
      obtain ⟨ps', rest, rfl⟩ := modified
      have absent := (modify?_eq_none_iff id f p).1 first
      rw [absent, Option.none_or] at found
      simp [findInList?, absent, findInList?_modifyInList? same rest found]

theorem findInOption?_modifyInOption? {id : PropertyId} {f : Property → Property}
    (same : ∀ p, (f p).id = p.id) : ∀ {e e' : Option Property} {r : Property},
    modifyInOption? id f e = some e' → findInOption? id e = some r →
      findInOption? id e' = some (f r)
  | some p, e', r, modified, found => by
    simp only [modifyInOption?, Option.map_eq_some_iff] at modified
    obtain ⟨p', hp, rfl⟩ := modified
    exact find?_modify? same hp found
end

end CredentialSchema.Property

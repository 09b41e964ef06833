import CredentialSchema.Proofs.Property.Container

/-!
The forest around a property. Whatever a walk for an identifier finds fills a gap in the forest, and
the forest around the gap is the same whatever fills it: walks for the identifier reach what is
there, and an edit of what is there is an edit of the forest.
-/
namespace CredentialSchema.Property

/-- A forest with a gap for the property with this identifier. -/
structure Focus (forest : Property → List Property) (id : PropertyId) : Prop where
  reaches : Reaches forest id
  splice : ∀ {old new : List Property} {p q : Property}, Splice old new [p] [q] →
    Splice old new (forest p) (forest q)

namespace Focus

variable {forest : Property → List Property} {id : PropertyId}

theorem self (id : PropertyId) : Focus (fun p => [p]) id :=
  ⟨@reaches_append id [] List.not_mem_nil [], fun spliced => spliced⟩

theorem append (h : Focus forest id) (after : List Property) :
    Focus (fun p => forest p ++ after) id :=
  ⟨h.reaches.append after, fun spliced => (h.splice spliced).frame [] after⟩

theorem cons (h : Focus forest id) {p : Property} (absent : id ∉ p.ids) :
    Focus (fun q => p :: forest q) id :=
  ⟨h.reaches.cons absent, fun spliced => (h.splice spliced).cons p⟩

theorem members (h : Focus forest id) {d : Declaration} (other : d.id ≠ id)
    (e : Option Property) : Focus (fun q => [⟨d, forest q, e⟩]) id :=
  ⟨h.reaches.members other e, fun spliced => .inMembers [] [] d e (h.splice spliced)⟩

theorem element {g : Property → Property} (h : Focus (fun q => [g q]) id) {d : Declaration}
    {ms : List Property} (other : d.id ≠ id) (absent : id ∉ idsOfList ms) :
    Focus (fun q => [⟨d, ms, some (g q)⟩]) id :=
  ⟨h.reaches.below other absent, fun spliced => .inElement [] [] d ms (h.splice spliced)⟩

end Focus

variable {id : PropertyId}

mutual
theorem exists_focus_of_find? : ∀ {p r : Property}, find? id p = some r →
    ∃ g : Property → Property, p = g r ∧ Focus (fun q => [g q]) id
  | ⟨d, ms, e⟩, r, found => by
    rw [find?] at found
    by_cases here : d.id = id
    · rw [if_pos here, Option.some.injEq] at found
      exact ⟨fun q => q, found, .self id⟩
    · rw [if_neg here] at found
      cases inMembers : findInList? id ms with
      | some r' =>
        rw [inMembers, Option.some_or, Option.some.injEq] at found
        obtain ⟨forest, rfl, focus⟩ := exists_focus_of_findInList? (found ▸ inMembers)
        exact ⟨fun q => ⟨d, forest q, e⟩, rfl, focus.members here e⟩
      | none =>
        rw [inMembers, Option.none_or] at found
        obtain ⟨g, rfl, focus⟩ := exists_focus_of_findInOption? found
        have absent := (findInList?_eq_none_iff id ms).1 inMembers
        exact ⟨fun q => ⟨d, ms, some (g q)⟩, rfl, focus.element here absent⟩

theorem exists_focus_of_findInList? : ∀ {ps : List Property} {r : Property},
    findInList? id ps = some r → ∃ forest : Property → List Property, ps = forest r ∧
      Focus forest id
  | p :: ps, r, found => by
    rw [findInList?] at found
    cases first : find? id p with
    | some r' =>
      rw [first, Option.some_or, Option.some.injEq] at found
      obtain ⟨g, rfl, focus⟩ := exists_focus_of_find? (found ▸ first)
      exact ⟨fun q => g q :: ps, rfl, focus.append ps⟩
    | none =>
      rw [first, Option.none_or] at found
      obtain ⟨forest, rfl, focus⟩ := exists_focus_of_findInList? found
      have absent := (find?_eq_none_iff id p).1 first
      exact ⟨fun q => p :: forest q, rfl, focus.cons absent⟩

theorem exists_focus_of_findInOption? : ∀ {e : Option Property} {r : Property},
    findInOption? id e = some r → ∃ g : Property → Property, e = some (g r) ∧
      Focus (fun q => [g q]) id
  | some _, _, found => by
    obtain ⟨g, rfl, focus⟩ := exists_focus_of_find? found
    exact ⟨g, rfl, focus⟩
end

end CredentialSchema.Property

import CredentialSchema.Proofs.Property.Everywhere
import CredentialSchema.Proofs.Property.Gap

/-!
Element definitions that carry the name of their array. A splice keeps this if what it puts in
for an element definition has the name of the array, and a renaming of the array keeps it because
the chain is renamed along. Renaming an element definition by itself is what breaks it.
-/
namespace CredentialSchema.Property

/-- An element definition of a property has the property's name. -/
def Named (p : Property) : Prop := ∀ q ∈ p.element, q.name = p.name

/-- Of the properties that a splice leaves, each is related to one that was there, if this holds
within the exchanged run and whenever nothing but what is below a property changes. -/
theorem Splice.related {old new ps qs : List Property} (h : Splice old new ps qs)
    {R : Property → Property → Prop} (run : ∀ q ∈ new, ∃ p ∈ old, R p q)
    (below : ∀ p q, p.decl = q.decl → R p q) : ∀ q ∈ qs, ∃ p ∈ ps, R p q := by
  cases h with
  | here before after =>
    intro q mem
    simp only [List.mem_append] at mem ⊢
    rcases mem with (mem | mem) | mem
    · exact ⟨q, .inl (.inl mem), below q q rfl⟩
    · obtain ⟨p, was, related⟩ := run q mem
      exact ⟨p, .inl (.inr was), related⟩
    · exact ⟨q, .inr mem, below q q rfl⟩
  | inMembers before after d e _ | inElement before after d ms _ =>
    intro q mem
    simp only [List.mem_append, List.mem_cons] at mem ⊢
    rcases mem with mem | rfl | mem
    · exact ⟨q, .inl mem, below q q rfl⟩
    · exact ⟨_, .inr (.inl rfl), below _ _ rfl⟩
    · exact ⟨q, .inr (.inr mem), below q q rfl⟩

theorem Splice.named {old new ps qs : List Property} (h : Splice old new ps qs)
    (names : ∀ q ∈ new, ∃ p ∈ old, q.name = p.name)
    (inner : Everywhere Named old → Everywhere Named new) (named : Everywhere Named ps) :
    Everywhere Named qs := by
  refine h.everywhere (fun d ms ms' e _ here => here) (fun d ms e e' _ spliced here => ?_) inner
    named
  intro q isElement
  obtain ⟨p, was, same⟩ := spliced.related (R := fun p q => q.name = p.name) names
    (fun p q same => congrArg Declaration.name same.symm) q (Option.mem_toList.2 isElement)
  exact same.trans (here p (Option.mem_toList.1 was))

theorem name_changeKind (kind : Kind) (p : Property) : (changeKind kind p).name = p.name := by
  rw [changeKind]
  split <;> rfl

theorem name_patch (u : Patch) (p : Property) : (patch u p).name = u.name.getD p.name := by
  obtain ⟨d, ms, e⟩ := p
  obtain ⟨name, displayName, description, kind, required, constraints⟩ := u
  cases name <;> cases kind <;> simp [patch, name_changeKind, renameChain, Property.name]

theorem named_renameElement (name : String) (e : Option Property) :
    ∀ q ∈ renameElement name e, q.name = name := by
  cases e with
  | none => exact nofun
  | some p =>
    obtain ⟨d, ms, e⟩ := p
    intro q isElement
    obtain rfl := Option.some.inj isElement
    rfl

theorem named_patch (u : Patch) {p : Property} (h : Everywhere Named [p]) :
    Everywhere Named [patch u p] := by
  refine everywhere_patch u (fun name d ms e _ => named_renameElement name e) ?_ h
  rintro d d' ms ms' e e' same - (rfl | rfl) here
  · exact fun q isElement => (here q isElement).trans same.symm
  · exact nofun

theorem named_fresh (id : PropertyId) (kind : Kind) (name : String) :
    Everywhere Named [Property.fresh id kind name] := by
  simp [Property.fresh, everywhere_cons, Named]

mutual
/-- Where identifiers are distinct, an edit of an element definition leaves its array as it is,
up to the edited element definition. -/
theorem element_modify? {id : PropertyId} {f : Property → Property} {a q : Property}
    (element : a.element = some q) (isTarget : q.id = id) : ∀ {p r : Property},
    modify? id f p = some r → p.ids.Nodup → a ∈ subtree p →
      ∃ ms, ⟨a.decl, ms, some (f q)⟩ ∈ subtree r
  | ⟨d, ms, e⟩, r, modified, distinct, below => by
    simp only [ids, idsOfOption_eq, List.nodup_cons, List.mem_append, not_or,
      List.nodup_append] at distinct
    obtain ⟨⟨notMember, notElement⟩, inMs, inE, apart⟩ := distinct
    simp only [subtree, subtreeOfOption_eq, List.mem_cons, List.mem_append] at below
    have targetIn {ps : List Property} (mem : a ∈ subtreeOfList ps) : id ∈ idsOfList ps :=
      isTarget ▸ id_mem_ids (element_subset mem element)
    have elementIn (self : a = ⟨d, ms, e⟩) : id ∈ idsOfList e.toList := by
      subst self
      obtain rfl : e = some q := element
      exact isTarget ▸ id_mem_ids (mem_subtreeOfList.2 ⟨q, by simp, mem_subtree_self q⟩)
    have other : d.id ≠ id := by
      rintro rfl
      rcases below with self | mem | mem
      · exact notElement (elementIn self)
      · exact notMember (targetIn mem)
      · exact notElement (targetIn mem)
    rw [modify?, if_neg other] at modified
    cases inMembers : modifyInList? id f ms with
    | some ms' =>
      simp only [inMembers, Option.some.injEq] at modified
      subst modified
      have isBelow : id ∈ idsOfList ms := by
        by_contra absent
        have notFound :=
          (modifyInList?_eq_none_iff id f ms).2 ((findInList?_eq_none_iff id ms).2 absent)
        simp [notFound] at inMembers
      have mem : a ∈ subtreeOfList ms := by
        rcases below with self | mem | mem
        · exact absurd rfl (apart id isBelow id (elementIn self))
        · exact mem
        · exact absurd rfl (apart id isBelow id (targetIn mem))
      obtain ⟨ms'', found⟩ := element_modifyInList? element isTarget inMembers inMs mem
      exact ⟨ms'', by simp [subtree, found]⟩
    | none =>
      simp only [inMembers, Option.map_eq_some_iff] at modified
      obtain ⟨e', inElement, rfl⟩ := modified
      have absent : id ∉ idsOfList ms :=
        (findInList?_eq_none_iff id ms).1 ((modifyInList?_eq_none_iff id f ms).1 inMembers)
      cases e with
      | none => simp [modifyInOption?] at inElement
      | some p =>
        simp only [modifyInOption?, Option.map_eq_some_iff] at inElement
        obtain ⟨p', edited, rfl⟩ := inElement
        rcases below with self | mem | mem
        · subst self
          obtain rfl : p = q := Option.some.inj element
          obtain rfl : f p = p' := by
            subst isTarget
            rw [modify?_self, Option.some.injEq] at edited
            exact edited
          exact ⟨ms, by simp [subtree]⟩
        · exact absurd (targetIn mem) absent
        · obtain ⟨ms', found⟩ := element_modify? element isTarget edited
            (by simpa [idsOfList] using inE) (by simpa [subtreeOfList] using mem)
          exact ⟨ms', by simp [subtree, subtreeOfList, found]⟩

theorem element_modifyInList? {id : PropertyId} {f : Property → Property} {a q : Property}
    (element : a.element = some q) (isTarget : q.id = id) : ∀ {ps qs : List Property},
    modifyInList? id f ps = some qs → (idsOfList ps).Nodup → a ∈ subtreeOfList ps →
      ∃ ms, ⟨a.decl, ms, some (f q)⟩ ∈ subtreeOfList qs
  | p :: ps, qs, modified, distinct, below => by
    rw [idsOfList, List.nodup_append] at distinct
    obtain ⟨first, rest, apart⟩ := distinct
    rw [subtreeOfList, List.mem_append] at below
    have targetIn {ps : List Property} (mem : a ∈ subtreeOfList ps) : id ∈ idsOfList ps :=
      isTarget ▸ id_mem_ids (element_subset mem element)
    rw [modifyInList?] at modified
    cases inFirst : modify? id f p with
    | some p' =>
      simp only [inFirst, Option.some.injEq] at modified
      subst modified
      have inP : id ∈ p.ids := by
        by_contra absent
        have notFound := (modify?_eq_none_iff id f p).2 ((find?_eq_none_iff id p).2 absent)
        simp [notFound] at inFirst
      have mem : a ∈ subtree p := below.resolve_right fun mem => apart id inP id (targetIn mem) rfl
      obtain ⟨ms, found⟩ := element_modify? element isTarget inFirst first mem
      exact ⟨ms, by simp [subtreeOfList, found]⟩
    | none =>
      simp only [inFirst, Option.map_eq_some_iff] at modified
      obtain ⟨ps', inRest, rfl⟩ := modified
      have absent : id ∉ p.ids :=
        (find?_eq_none_iff id p).1 ((modify?_eq_none_iff id f p).1 inFirst)
      have mem : a ∈ subtreeOfList ps := below.resolve_left fun mem =>
        absent (by simpa [idsOfList] using @targetIn [p] (by simpa [subtreeOfList] using mem))
      obtain ⟨ms, found⟩ := element_modifyInList? element isTarget inRest rest mem
      exact ⟨ms, by simp [subtreeOfList, found]⟩
end

end CredentialSchema.Property

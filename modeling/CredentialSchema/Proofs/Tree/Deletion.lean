import CredentialSchema.Proofs.Property.Path
import CredentialSchema.Proofs.Tree.Kept
import CredentialSchema.Proofs.Tree.Local

/-!
Deletion takes out one subtree. What is left of a forest without one identifier is told by
`without`, which looks at every property; a deletion looks for one, and where identifiers are
pairwise distinct the two agree. So a deletion undoes the addition of what it takes out.
-/
namespace CredentialSchema

namespace Property

mutual
/-- The property with everything dropped below it that has this identifier. -/
def withoutBelow (id : PropertyId) : Property → Property
  | ⟨d, ms, e⟩ => ⟨d, without id ms, withoutInOption id e⟩

/-- What is left of a forest when everything with this identifier is dropped, with all below it. -/
def without (id : PropertyId) : List Property → List Property
  | [] => []
  | p :: ps => if p.id = id then without id ps else withoutBelow id p :: without id ps

def withoutInOption (id : PropertyId) : Option Property → Option Property
  | none => none
  | some p => if p.id = id then none else some (withoutBelow id p)
end

theorem without_append (id : PropertyId) (ps qs : List Property) :
    without id (ps ++ qs) = without id ps ++ without id qs := by
  induction ps with
  | nil => rfl
  | cons p ps ih =>
    rw [List.cons_append, without, without, ih]
    split <;> rfl

theorem toList_withoutInOption (id : PropertyId) (e : Option Property) :
    (withoutInOption id e).toList = without id e.toList := by
  cases e with
  | none => rfl
  | some p =>
    rw [withoutInOption, Option.toList_some, without]
    split <;> rfl

mutual
theorem withoutBelow_of_absent {id : PropertyId} : ∀ {p : Property}, id ∉ p.ids →
    withoutBelow id p = p
  | ⟨d, ms, e⟩, absent => by
    rw [ids, List.mem_cons, List.mem_append, not_or, not_or] at absent
    rw [withoutBelow, without_of_absent absent.2.1, withoutInOption_of_absent absent.2.2]

theorem without_of_absent {id : PropertyId} : ∀ {ps : List Property}, id ∉ idsOfList ps →
    without id ps = ps
  | [], _ => rfl
  | ⟨d, ms, e⟩ :: ps, absent => by
    rw [idsOfList, List.mem_append, not_or] at absent
    have other : d.id ≠ id := by
      rintro rfl
      exact absent.1 List.mem_cons_self
    rw [without, if_neg other, withoutBelow_of_absent absent.1, without_of_absent absent.2]

theorem withoutInOption_of_absent {id : PropertyId} : ∀ {e : Option Property},
    id ∉ idsOfOption e → withoutInOption id e = e
  | none, _ => rfl
  | some ⟨d, ms, e⟩, absent => by
    have other : d.id ≠ id := by
      rintro rfl
      exact absent List.mem_cons_self
    rw [withoutInOption, if_neg other, withoutBelow_of_absent absent]
end

theorem Splice.without_eq {id : PropertyId} {old new ps qs : List Property}
    (h : Splice old new ps qs) (run : without id old = new) (absent : id ∉ idsOfList qs) :
    without id ps = qs := by
  induction h with
  | here before after =>
    -- Around the run the identifier is as absent as it is afterwards, so nothing else is dropped.
    simp only [idsOfList_append, List.mem_append, not_or] at absent
    obtain ⟨⟨notBefore, -⟩, notAfter⟩ := absent
    rw [without_append, without_append, without_of_absent notBefore, run,
      without_of_absent notAfter]
  | inMembers before after d e _ ih =>
    simp only [idsOfList_append, idsOfList, Property.ids, List.mem_append, List.mem_cons,
      not_or] at absent
    obtain ⟨notBefore, ⟨other, notMember, notElement⟩, notAfter⟩ := absent
    rw [without_append, without_of_absent notBefore, without, if_neg (Ne.symm other), withoutBelow,
      ih notMember, withoutInOption_of_absent notElement, without_of_absent notAfter]
  | @inElement before after d ms e e' _ ih =>
    simp only [idsOfList_append, idsOfList, Property.ids, List.mem_append, List.mem_cons,
      not_or] at absent
    obtain ⟨notBefore, ⟨other, notMember, notElement⟩, notAfter⟩ := absent
    have element : withoutInOption id e = e' := by
      rw [idsOfOption_eq] at notElement
      simpa using congrArg List.head? ((toList_withoutInOption id e).trans (ih notElement))
    rw [without_append, without_of_absent notBefore, without, if_neg (Ne.symm other), withoutBelow,
      without_of_absent notMember, element, without_of_absent notAfter]

mutual
theorem removeBelow?_eq_none_iff (id : PropertyId) : ∀ p : Property,
    removeBelow? id p = none ↔ id ∉ idsOfList p.members ∧ id ∉ idsOfOption p.element
  | ⟨d, ms, e⟩ => by
    have members := removeInList?_eq_none_iff id ms
    have element := removeInOption?_eq_none_iff id e
    rw [removeBelow?]
    cases hm : removeInList? id ms <;> simp_all

theorem removeInList?_eq_none_iff (id : PropertyId) :
    ∀ ps : List Property, removeInList? id ps = none ↔ id ∉ idsOfList ps
  | [] => by simp [removeInList?, idsOfList]
  | ⟨d, ms, e⟩ :: ps => by
    have below := removeBelow?_eq_none_iff id ⟨d, ms, e⟩
    have rest := removeInList?_eq_none_iff id ps
    rw [removeInList?]
    by_cases here : d.id = id
    · rw [if_pos here]
      simp [idsOfList, Property.ids, here]
    · rw [if_neg here]
      cases hp : removeBelow? id ⟨d, ms, e⟩ <;>
        simp_all [idsOfList, Property.ids, Ne.symm here]

theorem removeInOption?_eq_none_iff (id : PropertyId) :
    ∀ e : Option Property, removeInOption? id e = none ↔ id ∉ idsOfOption e
  | none => by simp [removeInOption?, idsOfOption]
  | some ⟨d, ms, e⟩ => by
    have below := removeBelow?_eq_none_iff id ⟨d, ms, e⟩
    rw [removeInOption?]
    by_cases here : d.id = id
    · rw [if_pos here]
      simp [idsOfOption, Property.ids, here]
    · rw [if_neg here]
      simp_all [idsOfOption, Property.ids, Ne.symm here]
end

end Property

namespace Tree

open Property hiding id

variable {t t' : Tree}

theorem delete?_eq_none_iff (t : Tree) (id : PropertyId) : t.delete? id = none ↔ id ∉ t.ids := by
  rw [delete?, Option.map_eq_none_iff, removeInList?_eq_none_iff]
  rfl

theorem delete?_spec {id : PropertyId} {gone : Property} (distinct : t.ids.Nodup)
    (h : t.delete? id = some (gone, t')) :
    t.find? id = some gone ∧ Splice [gone] [] t.roots t'.roots ∧
      (∀ below ∈ gone.ids, below ∉ t'.ids) ∧ t'.roots = without id t.roots := by
  have frame := delete?_local (s := ⟨Uuid.numbered, 0⟩) distinct h
  obtain ⟨-, p, found, same, absent⟩ := frame
  obtain rfl : gone = p := by simpa [h] using same
  obtain ⟨⟨gone', roots⟩, removed, same⟩ := Option.map_eq_some_iff.1 h
  obtain ⟨rfl, rfl⟩ := Prod.mk.inj same
  obtain ⟨isGone, spliced⟩ := removeInList?_splice removed
  have own : id ∈ gone'.ids := by
    obtain ⟨d, ms, e⟩ := gone'
    exact isGone ▸ List.mem_cons_self
  refine ⟨found, spliced, absent, (spliced.without_eq ?_ (absent id own)).symm⟩
  simp [without, isGone]

theorem without_of_add {fresh id : PropertyId} {parent : Option PropertyId} (new : fresh ∉ t.ids)
    (h : t.add fresh parent = .ok (some (id, t'))) : without fresh t'.roots = t.roots := by
  rcases place?_splice (place?_of_add h) with ⟨-, spliced⟩ | ⟨holder, ⟨d, ms, e⟩, -, found, spliced⟩
  · refine spliced.symm.without_eq ?_ new
    simp [without, Property.fresh]
  · obtain ⟨spine, splicedAt⟩ := spliced.exists_spine
    have absent : fresh ∉ idsOfList [⟨d, ms, e⟩] := fun mem => new (splicedAt.subset_ids mem)
    simp only [idsOfList, Property.ids, idsOfOption_eq, List.append_nil, List.mem_cons,
      List.mem_append, not_or] at absent
    obtain ⟨other, notMember, notElement⟩ := absent
    refine spliced.symm.without_eq ?_ new
    rw [← idsOfOption_eq] at notElement
    simp [withMember, without, withoutBelow, Ne.symm other, without_append,
      without_of_absent notMember, withoutInOption_of_absent notElement, Property.fresh]

theorem mem_ids_of_add {fresh id : PropertyId} {parent : Option PropertyId}
    (h : t.add fresh parent = .ok (some (id, t'))) : id = fresh ∧ id ∈ t'.ids := by
  have isFresh : id = fresh := by
    rw [add_of_accepts (accepts_of_add h), Except.ok.injEq, Option.map_eq_some_iff] at h
    obtain ⟨t'', -, same⟩ := h
    exact (Prod.mk.inj same).1.symm
  refine ⟨isFresh, ?_⟩
  rcases place?_splice (place?_of_add h) with ⟨-, spliced⟩ | ⟨holder, p, -, -, spliced⟩
  · obtain ⟨spine, splicedAt⟩ := spliced.symm.exists_spine
    exact splicedAt.subset_ids (by simp [idsOfList, Property.fresh, Property.ids, isFresh])
  · obtain ⟨spine, splicedAt⟩ := spliced.symm.exists_spine
    exact splicedAt.subset_ids
      (by simp [withMember, idsOfList, Property.fresh, Property.ids, isFresh])

/-- A deletion returns what a lookup finds and takes it out with everything below it, which stands
together in the depth-first order, and nothing else; there is one for every identifier in the tree
and for no other. Whatever was added is what a deletion takes out again. -/
theorem delete_exact {t : Tree} (distinct : t.ids.Nodup) :
    (∀ id, t.delete? id = none ↔ id ∉ t.ids) ∧
      (∀ id gone t', t.delete? id = some (gone, t') → t.find? id = some gone ∧
        Splice [gone] [] t.roots t'.roots ∧ t'.roots = without id t.roots ∧
        (∃ before after, t.ids = before ++ gone.ids ++ after ∧ t'.ids = before ++ after) ∧
        ∀ below ∈ gone.ids, t'.find? below = none) ∧
      ∀ parent fresh id t', fresh ∉ t.ids → t.add fresh parent = .ok (some (id, t')) →
        ∃ gone t'', t'.delete? id = some (gone, t'') ∧ t''.roots = t.roots := by
  refine ⟨t.delete?_eq_none_iff, fun id gone t' deleted => ?_, ?_⟩
  · obtain ⟨found, spliced, absent, rest⟩ := delete?_spec distinct deleted
    obtain ⟨before, after, ids, ids'⟩ := spliced.ids
    refine ⟨found, spliced, rest, ⟨before, after, ?_, ?_⟩, fun below mem => ?_⟩
    · simpa [Tree.ids, idsOfList] using ids
    · simpa [Tree.ids, idsOfList] using ids'
    · exact (findInList?_eq_none_iff below t'.roots).2 (absent below mem)
  · intro parent fresh id t' new added
    obtain ⟨rfl, isThere⟩ := mem_ids_of_add added
    obtain ⟨⟨gone, t''⟩, deleted⟩ :=
      Option.ne_none_iff_exists'.1 (mt (t'.delete?_eq_none_iff id).1 (not_not.2 isThere))
    refine ⟨gone, t'', deleted, ?_⟩
    obtain ⟨-, -, -, rest⟩ := delete?_spec (nodup_add distinct new added) deleted
    rw [rest, without_of_add new added]

/-- The tags of an object are an array of arrays. The array goes with its two element definitions,
and a property that was added behind it goes again. -/
theorem delete_exact_tags :
    let node (n : Nat) (name : String) (kind : Kind) (ms : List Property)
        (e : Option Property) : Property := ⟨{ id := ⟨.numbered n⟩, name, kind }, ms, e⟩
    let tags := node 2 "tags" .array [] (node 3 "tags" .array [] (node 4 "tags" .string [] none))
    let city := node 5 "city" .string [] none
    let t : Tree := ⟨[node 0 "title" .string [] none, node 1 "home" .object [tags, city] none], 0⟩
    let home : PropertyId := ⟨.numbered 1⟩
    let new : PropertyId := ⟨.numbered 6⟩
    t.ids.Nodup ∧ new ∉ t.ids ∧
      (∃ t', t.delete? tags.id = some (tags, t') ∧ t'.ids = [⟨.numbered 0⟩, home, city.id] ∧
        t'.roots = without tags.id t.roots ∧ ∀ below ∈ tags.ids, t'.find? below = none) ∧
      ∃ t', t.add new (some home) = .ok (some (new, t')) ∧
        ∃ gone t'', t'.delete? new = some (gone, t'') ∧ t''.roots = t.roots := by
  intro node tags city t home new
  have distinct : t.ids.Nodup := by decide +kernel
  have isNew : new ∉ t.ids := by decide +kernel
  obtain ⟨-, deleted, added⟩ := delete_exact distinct
  have gone : t.delete? tags.id = some (tags, ⟨[node 0 "title" .string [] none,
      node 1 "home" .object [city] none], 1⟩) := by decide +kernel
  obtain ⟨-, -, rest, -, absent⟩ := deleted _ _ _ gone
  refine ⟨distinct, isNew, ⟨_, gone, by decide +kernel, rest, absent⟩, ?_⟩
  have put : t.add new (some home) = .ok (some (new, ⟨[node 0 "title" .string [] none,
      node 1 "home" .object [tags, city, .fresh new .string ""] none], 1⟩)) := by decide +kernel
  exact ⟨_, put, added _ _ _ _ isNew put⟩

end Tree
end CredentialSchema

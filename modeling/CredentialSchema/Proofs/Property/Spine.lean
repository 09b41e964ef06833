import CredentialSchema.Proofs.Property.Container
import CredentialSchema.Proofs.Property.Path

/-!
The way to a splice. Between the top level and the run of siblings that a splice exchanges lies a
chain of properties, each of which holds the next: the spine. Everything off it is left alone, and
the properties on it are left as they are but for the one list that holds the next of them or, at
the end, the run.
-/
namespace CredentialSchema.Property

/-- A splice with the identifiers of the properties on the way to it. -/
inductive SpliceAt (old new : List Property) :
    List PropertyId → List Property → List Property → Prop
  | here (before after : List Property) :
    SpliceAt old new [] (before ++ old ++ after) (before ++ new ++ after)
  | inMembers (before after : List Property) (d : Declaration) (e : Option Property)
    {spine : List PropertyId} {ms ms' : List Property} : SpliceAt old new spine ms ms' →
    SpliceAt old new (d.id :: spine) (before ++ ⟨d, ms, e⟩ :: after)
      (before ++ ⟨d, ms', e⟩ :: after)
  | inElement (before after : List Property) (d : Declaration) (ms : List Property)
    {spine : List PropertyId} {e e' : Option Property} :
    SpliceAt old new spine e.toList e'.toList →
    SpliceAt old new (d.id :: spine) (before ++ ⟨d, ms, e⟩ :: after)
      (before ++ ⟨d, ms, e'⟩ :: after)

variable {old new ps qs : List Property} {spine : List PropertyId} {id : PropertyId}

theorem Splice.exists_spine (h : Splice old new ps qs) : ∃ spine, SpliceAt old new spine ps qs := by
  induction h with
  | here before after => exact ⟨[], .here before after⟩
  | inMembers before after d e _ ih =>
    obtain ⟨spine, inner⟩ := ih
    exact ⟨d.id :: spine, .inMembers before after d e inner⟩
  | inElement before after d ms _ ih =>
    obtain ⟨spine, inner⟩ := ih
    exact ⟨d.id :: spine, .inElement before after d ms inner⟩

/-- What a splice makes of one list of siblings: the list has the same identifiers, and none of the
run that is exchanged, or it is the list that holds the run. -/
def Exchange (old new ps qs : List Property) : Prop :=
  (qs.map Property.id = ps.map Property.id ∧ ∀ r ∈ old, r.id ∉ ps.map Property.id) ∨
    ∃ before after, ps = before ++ old ++ after ∧ qs = before ++ new ++ after

theorem findInOption?_eq (id : PropertyId) (e : Option Property) :
    findInOption? id e = findInList? id e.toList := by
  cases e <;> simp [findInOption?, findInList?]

theorem nodup_node {before after ms : List Property} {d : Declaration} {e : Option Property}
    (distinct : (idsOfList (before ++ ⟨d, ms, e⟩ :: after)).Nodup) :
    d.id ∉ idsOfList ms ∧ d.id ∉ idsOfList e.toList ∧ (idsOfList ms).Nodup ∧
      (idsOfList e.toList).Nodup ∧ ∀ id ∈ idsOfList ms, id ∉ idsOfList e.toList :=
  (nodup_ids ⟨d, ms, e⟩).1 (nodup_ids_of_mem distinct (by simp))

theorem mem_ids_of_mem_map (mem : id ∈ ps.map Property.id) : id ∈ idsOfList ps := by
  obtain ⟨p, isListed, rfl⟩ := List.mem_map.1 mem
  exact id_mem_ids (mem_subtreeOfList_of_mem isListed)

theorem mem_ids_of_findInList? {p : Property} (found : findInList? id ps = some p) :
    id ∈ idsOfList ps := by
  obtain ⟨mem, rfl⟩ := mem_subtreeOfList_of_find? found
  exact id_mem_ids mem

theorem exchange_of_apart {before after : List Property} {p p' : Property} (same : p'.id = p.id)
    (distinct : (idsOfList (before ++ p :: after)).Nodup)
    (isBelow : ∀ r ∈ old, r.id ∈ p.ids ∧ r.id ≠ p.id) :
    Exchange old new (before ++ p :: after) (before ++ p' :: after) := by
  refine .inl ⟨by simp [same], fun r mem listed => ?_⟩
  obtain ⟨inside, other⟩ := isBelow r mem
  obtain ⟨notBefore, notAfter⟩ := not_mem_ids_around distinct inside
  rw [List.map_append, List.map_cons, List.mem_append, List.mem_cons] at listed
  rcases listed with earlier | here | later
  · exact notBefore (mem_ids_of_mem_map earlier)
  · exact other here
  · exact notAfter (mem_ids_of_mem_map later)

namespace SpliceAt

theorem path_eq (h : SpliceAt old new spine ps qs)
    (same : pathInList? id new = pathInList? id old) : pathInList? id qs = pathInList? id ps := by
  induction h with
  | here before after => simp only [pathInList?_append, same]
  | inMembers before after d e _ ih => simp only [pathInList?_append, pathInList?, path?, ih]
  | inElement before after d ms _ ih =>
    simp only [pathInList?_append, pathInList?, path?, pathInOption?_eq, ih]

theorem find_eq (h : SpliceAt old new spine ps qs) (off : id ∉ spine)
    (same : findInList? id new = findInList? id old) : findInList? id qs = findInList? id ps := by
  induction h with
  | here before after => simp only [findInList?_append, same]
  | inMembers before after d e _ ih =>
    rw [List.mem_cons, not_or] at off
    obtain ⟨other, off⟩ := off
    simp only [findInList?_append, findInList?, find?, if_neg (Ne.symm other), ih off]
  | inElement before after d ms _ ih =>
    rw [List.mem_cons, not_or] at off
    obtain ⟨other, off⟩ := off
    simp only [findInList?_append, findInList?, find?, if_neg (Ne.symm other), findInOption?_eq,
      ih off]

theorem subset_subtree (h : SpliceAt old new spine ps qs) :
    subtreeOfList old ⊆ subtreeOfList ps := by
  induction h with
  | here before after =>
    intro p mem
    simp [mem]
  | inMembers before after d e _ ih =>
    intro p mem
    simp [subtreeOfList, subtree, ih mem]
  | inElement before after d ms _ ih =>
    intro p mem
    simp [subtreeOfList, subtree, ih mem]

theorem subset_ids (h : SpliceAt old new spine ps qs) : idsOfList old ⊆ idsOfList ps := by
  rw [← map_id_subtreeOfList, ← map_id_subtreeOfList]
  exact List.map_subset Property.id h.subset_subtree

theorem not_mem_spine (h : SpliceAt old new spine ps qs) (distinct : (idsOfList ps).Nodup)
    (mem : id ∈ idsOfList old) : id ∉ spine := by
  induction h with
  | here before after => exact List.not_mem_nil
  | @inMembers before after d e spine ms ms' inner ih =>
    obtain ⟨notMember, -, apart, -⟩ := nodup_node distinct
    rintro (_ | ⟨_, on⟩)
    · exact notMember (inner.subset_ids mem)
    · exact ih apart on
  | @inElement before after d ms spine e e' inner ih =>
    obtain ⟨-, notElement, -, apart, -⟩ := nodup_node distinct
    rintro (_ | ⟨_, on⟩)
    · exact notElement (inner.subset_ids mem)
    · exact ih apart on

theorem path_spine (h : SpliceAt old new spine ps qs) (distinct : (idsOfList ps).Nodup)
    {trail : List PropertyId} (found : pathInList? id old = some trail) :
    pathInList? id ps = some (spine ++ trail) := by
  have mem : id ∈ idsOfList old := by
    by_contra absent
    rw [(pathInList?_eq_none_iff id old).2 absent] at found
    exact absurd found nofun
  induction h with
  | here before after =>
    rw [List.append_assoc, idsOfList_append, idsOfList_append] at distinct
    have absent : id ∉ idsOfList before := fun earlier =>
      (List.nodup_append.1 distinct).2.2 id earlier id (List.mem_append_left _ mem) rfl
    rw [List.append_assoc, pathInList?_append, pathInList?_append,
      (pathInList?_eq_none_iff id before).2 absent, found]
    rfl
  | @inMembers before after d e spine ms ms' inner ih =>
    obtain ⟨notMember, -, apart, -⟩ := nodup_node distinct
    have there := inner.subset_ids mem
    have other : d.id ≠ id := by
      rintro rfl
      exact notMember there
    refine pathInList?_of_mem distinct (List.mem_append_right before List.mem_cons_self) ?_
    rw [path?_of_ne other, ih apart]
    rfl
  | @inElement before after d ms spine e e' inner ih =>
    obtain ⟨-, notElement, -, apart, absent⟩ := nodup_node distinct
    have there := inner.subset_ids mem
    have other : d.id ≠ id := by
      rintro rfl
      exact notElement there
    have notMember : pathInList? id ms = none :=
      (pathInList?_eq_none_iff id ms).2 fun isMember => absent id isMember there
    refine pathInList?_of_mem distinct (List.mem_append_right before List.mem_cons_self) ?_
    rw [path?_of_ne other, notMember, ih apart]
    rfl

theorem id_mem (h : SpliceAt old new spine ps qs) {r : Property} (mem : r ∈ old) :
    r.id ∈ idsOfList ps :=
  h.subset_ids (id_mem_ids (mem_subtreeOfList_of_mem mem))

theorem exchange (h : SpliceAt old new spine ps qs) (distinct : (idsOfList ps).Nodup) :
    Exchange old new ps qs := by
  cases h with
  | here before after => exact .inr ⟨before, after, rfl, rfl⟩
  | @inMembers before after d e spine ms ms' inner =>
    obtain ⟨notMember, -⟩ := nodup_node distinct
    refine exchange_of_apart rfl distinct fun r mem => ⟨?_, fun same : r.id = d.id => ?_⟩
    · simp [ids, inner.id_mem mem]
    · exact notMember (same ▸ inner.id_mem mem)
  | @inElement before after d ms spine e e' inner =>
    obtain ⟨-, notElement, -⟩ := nodup_node distinct
    refine exchange_of_apart rfl distinct fun r mem => ⟨?_, fun same : r.id = d.id => ?_⟩
    · simp [ids, inner.id_mem mem]
    · exact notElement (same ▸ inner.id_mem mem)

theorem above (h : SpliceAt old new spine ps qs) (distinct : (idsOfList ps).Nodup)
    (on : id ∈ spine) : ∃ p p', findInList? id ps = some p ∧ findInList? id qs = some p' ∧
      p'.decl = p.decl ∧ Exchange old new p.members p'.members ∧
        Exchange old new p.element.toList p'.element.toList := by
  induction h with
  | here before after => exact absurd on List.not_mem_nil
  | @inMembers before after d e spine ms ms' inner ih =>
    obtain ⟨notMember, -, apart, -, absent⟩ := nodup_node distinct
    have reaches {id : PropertyId} (mem : id ∈ (⟨d, ms, e⟩ : Property).ids) :=
      reaches_append (not_mem_ids_around distinct mem).1 after
    rcases List.mem_cons.1 on with rfl | on
    · have here := reaches List.mem_cons_self
      refine ⟨⟨d, ms, e⟩, ⟨d, ms', e⟩, here.find (find?_self ⟨d, ms, e⟩),
        here.find (find?_self ⟨d, ms', e⟩), rfl, inner.exchange apart, .inl ⟨rfl, ?_⟩⟩
      intro r mem listed
      exact absent r.id (inner.id_mem mem) (mem_ids_of_mem_map listed)
    · obtain ⟨p, p', found, found', kept⟩ := ih apart on
      have there : id ∈ idsOfList ms := mem_ids_of_findInList? found
      have other : d.id ≠ id := by
        rintro rfl
        exact notMember there
      have here := reaches (List.mem_cons_of_mem d.id (List.mem_append_left _ there))
      refine ⟨p, p', here.find ?_, here.find ?_, kept⟩
      · rw [find?, if_neg other, found, Option.some_or]
      · rw [find?, if_neg other, found', Option.some_or]
  | @inElement before after d ms spine e e' inner ih =>
    obtain ⟨-, notElement, -, apart, absent⟩ := nodup_node distinct
    have reaches {id : PropertyId} (mem : id ∈ (⟨d, ms, e⟩ : Property).ids) :=
      reaches_append (not_mem_ids_around distinct mem).1 after
    rcases List.mem_cons.1 on with rfl | on
    · have here := reaches List.mem_cons_self
      refine ⟨⟨d, ms, e⟩, ⟨d, ms, e'⟩, here.find (find?_self ⟨d, ms, e⟩),
        here.find (find?_self ⟨d, ms, e'⟩), rfl, .inl ⟨rfl, ?_⟩, inner.exchange apart⟩
      intro r mem listed
      exact absent r.id (mem_ids_of_mem_map listed) (inner.id_mem mem)
    · obtain ⟨p, p', found, found', kept⟩ := ih apart on
      have there : id ∈ idsOfList e.toList := mem_ids_of_findInList? found
      have other : d.id ≠ id := by
        rintro rfl
        exact notElement there
      have notMember : findInList? id ms = none :=
        (findInList?_eq_none_iff id ms).2 fun isMember => absent id isMember there
      have here : Reaches (fun p => before ++ p :: after) id := reaches (by simp [ids, there])
      refine ⟨p, p', here.find ?_, here.find ?_, kept⟩
      · rw [find?, if_neg other, notMember, Option.none_or, findInOption?_eq, found]
      · rw [find?, if_neg other, notMember, Option.none_or, findInOption?_eq, found']

end SpliceAt
end CredentialSchema.Property

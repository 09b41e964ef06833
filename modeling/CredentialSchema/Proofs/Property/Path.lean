import CredentialSchema.Proofs.Property.Gap

/-!
Paths of identifiers. The walk for a path goes as the walk for a property does, through the members
in order and then the element definition. A `Way` is what a path should be, whoever finds it. Where
no identifier comes twice, there is one way to each property, and both walks take it.
-/
namespace CredentialSchema.Property

@[simp] theorem pathInOption?_eq (id : PropertyId) (e : Option Property) :
    pathInOption? id e = pathInList? id e.toList := by
  cases e <;> simp [pathInOption?, pathInList?]

theorem pathInList?_append (id : PropertyId) (ps qs : List Property) :
    pathInList? id (ps ++ qs) = (pathInList? id ps).or (pathInList? id qs) := by
  induction ps with
  | nil => rfl
  | cons p ps ih => simp [pathInList?, ih, Option.or_assoc]

theorem nodup_ids (p : Property) :
    p.ids.Nodup ↔ p.id ∉ idsOfList p.members ∧ p.id ∉ idsOfList p.element.toList ∧
      (idsOfList p.members).Nodup ∧ (idsOfList p.element.toList).Nodup ∧
        ∀ id ∈ idsOfList p.members, id ∉ idsOfList p.element.toList := by
  obtain ⟨d, ms, e⟩ := p
  rw [ids, idsOfOption_eq, List.nodup_cons, List.mem_append, not_or, List.nodup_append', and_assoc]
  rfl

theorem path?_self (p : Property) : path? p.id p = some [p.id] := by
  obtain ⟨d, ms, e⟩ := p
  exact if_pos rfl

theorem path?_of_ne {id : PropertyId} {p : Property} (other : p.id ≠ id) :
    path? id p = ((pathInList? id p.members).or (pathInList? id p.element.toList)).map
      (p.id :: ·) := by
  obtain ⟨d, ms, e⟩ := p
  rw [path?, pathInOption?_eq]
  exact if_neg other

mutual
theorem path?_eq_none_iff (id : PropertyId) : ∀ p : Property, path? id p = none ↔ id ∉ p.ids
  | ⟨d, ms, e⟩ => by
    have members := pathInList?_eq_none_iff id ms
    have element := pathInOption?_eq_none_iff id e
    rw [path?, ids]
    by_cases here : d.id = id
    · simp [here]
    · rw [if_neg here, Option.map_eq_none_iff, Option.or_eq_none_iff, members, element,
        List.mem_cons, List.mem_append, not_or, not_or]
      exact ⟨fun h => ⟨Ne.symm here, h⟩, fun h => h.2⟩

theorem pathInList?_eq_none_iff (id : PropertyId) :
    ∀ ps : List Property, pathInList? id ps = none ↔ id ∉ idsOfList ps
  | [] => by simp [pathInList?, idsOfList]
  | p :: ps => by
    simp only [pathInList?, idsOfList, Option.or_eq_none_iff, path?_eq_none_iff id p,
      pathInList?_eq_none_iff id ps, List.mem_append, not_or]

theorem pathInOption?_eq_none_iff (id : PropertyId) :
    ∀ e : Option Property, pathInOption? id e = none ↔ id ∉ idsOfOption e
  | none => by simp [pathInOption?, idsOfOption]
  | some p => path?_eq_none_iff id p
end

theorem exists_path?_of_mem {id : PropertyId} {p : Property} (mem : id ∈ p.ids) :
    ∃ trail, path? id p = some (p.id :: trail) := by
  by_cases here : p.id = id
  · exact ⟨[], here ▸ path?_self p⟩
  · cases found : path? id p with
    | none => exact absurd mem ((path?_eq_none_iff id p).1 found)
    | some way =>
      rw [path?_of_ne here, Option.map_eq_some_iff] at found
      obtain ⟨trail, -, rfl⟩ := found
      exact ⟨trail, rfl⟩

variable {ps : List Property}

theorem mem_idsOfList {id : PropertyId} : id ∈ idsOfList ps ↔ ∃ p ∈ ps, id ∈ p.ids := by
  induction ps with
  | nil => simp [idsOfList]
  | cons p ps ih => simp [idsOfList, ih]

theorem mem_subtreeOfList_of_mem {p : Property} (mem : p ∈ ps) : p ∈ subtreeOfList ps :=
  mem_subtreeOfList.2 ⟨p, mem, mem_subtree_self p⟩

theorem nodup_ids_of_mem (distinct : (idsOfList ps).Nodup) {p : Property} (mem : p ∈ ps) :
    p.ids.Nodup := by
  obtain ⟨before, after, rfl⟩ := List.append_of_mem mem
  rw [idsOfList_append, idsOfList] at distinct
  exact distinct.of_append_right.of_append_left

theorem not_mem_ids_around {before after : List Property} {p : Property}
    (distinct : (idsOfList (before ++ p :: after)).Nodup) {id : PropertyId} (here : id ∈ p.ids) :
    id ∉ idsOfList before ∧ id ∉ idsOfList after := by
  rw [idsOfList_append, idsOfList, List.nodup_append', List.nodup_append'] at distinct
  obtain ⟨-, ⟨-, -, apart⟩, earlier⟩ := distinct
  exact ⟨fun mem => earlier mem (List.mem_append_left _ here), apart here⟩

theorem mem_ids_of_path? {p : Property} {id : PropertyId} {trail : List PropertyId}
    (h : path? id p = some trail) : id ∈ p.ids := by
  by_contra absent
  rw [(path?_eq_none_iff id p).2 absent] at h
  exact absurd h nofun

theorem pathInList?_of_mem (distinct : (idsOfList ps).Nodup) {p : Property} (mem : p ∈ ps)
    {id : PropertyId} {trail : List PropertyId} (h : path? id p = some trail) :
    pathInList? id ps = some trail := by
  obtain ⟨before, after, rfl⟩ := List.append_of_mem mem
  obtain ⟨absent, -⟩ := not_mem_ids_around distinct (mem_ids_of_path? h)
  rw [pathInList?_append, (pathInList?_eq_none_iff id before).2 absent, Option.none_or, pathInList?,
    h, Option.some_or]

theorem eq_of_id_eq (distinct : (idsOfList ps).Nodup) {p q : Property}
    (hp : p ∈ subtreeOfList ps) (hq : q ∈ subtreeOfList ps) (same : p.id = q.id) : p = q := by
  rw [← map_id_subtreeOfList] at distinct
  exact List.inj_on_of_nodup_map distinct hp hq same

theorem findInList?_of_mem (distinct : (idsOfList ps).Nodup) {p : Property}
    (mem : p ∈ subtreeOfList ps) : findInList? p.id ps = some p := by
  cases found : findInList? p.id ps with
  | none => exact absurd (id_mem_ids mem) ((findInList?_eq_none_iff p.id ps).1 found)
  | some q =>
    obtain ⟨there, same⟩ := mem_subtreeOfList_of_find? found
    rw [eq_of_id_eq distinct there mem same]

/-- A way down a forest: the identifier of a listed property, then of one that it holds, and so on
up to the property where the way ends. -/
inductive Way : List Property → List PropertyId → Property → Prop
  | stop {ps : List Property} {p : Property} : p ∈ ps → Way ps [p.id] p
  | members {ps : List Property} {p q : Property} {path : List PropertyId} :
    p ∈ ps → Way p.members path q → Way ps (p.id :: path) q
  | element {ps : List Property} {p q : Property} {path : List PropertyId} :
    p ∈ ps → Way p.element.toList path q → Way ps (p.id :: path) q

theorem exists_way {p q : Property} (below : q ∈ subtree p) (mem : p ∈ ps) :
    ∃ path, Way ps path q := by
  induction p using induct generalizing ps with
  | node d ms e hms he =>
    simp only [subtree, subtreeOfOption_eq, List.mem_cons, List.mem_append, mem_subtreeOfList]
      at below
    rcases below with rfl | ⟨m, isMember, below⟩ | ⟨m, isElement, below⟩
    · exact ⟨_, .stop mem⟩
    · obtain ⟨path, way⟩ := hms m isMember below isMember
      exact ⟨_, .members mem way⟩
    · obtain ⟨path, way⟩ := he m (Option.mem_toList.1 isElement) below isElement
      exact ⟨_, .element mem way⟩

namespace Way

variable {q : Property} {path : List PropertyId}

theorem mem_subtree (h : Way ps path q) : q ∈ subtreeOfList ps := by
  induction h with
  | stop mem => exact mem_subtreeOfList_of_mem mem
  | @members ps p q path mem _ ih =>
    obtain ⟨d, ms, e⟩ := p
    refine mem_subtreeOfList.2 ⟨_, mem, ?_⟩
    exact List.mem_cons_of_mem _ (List.mem_append_left _ ih)
  | @element ps p q path mem _ ih =>
    obtain ⟨d, ms, e⟩ := p
    refine mem_subtreeOfList.2 ⟨_, mem, ?_⟩
    rw [subtree, subtreeOfOption_eq]
    exact List.mem_cons_of_mem _ (List.mem_append_right _ ih)

theorem ne_nil (h : Way ps path q) : path ≠ [] := by
  cases h <;> simp

theorem getLast?_eq (h : Way ps path q) : path.getLast? = some q.id := by
  induction h with
  | stop mem => rfl
  | members mem way ih => rw [List.getLast?_cons_of_ne_nil way.ne_nil, ih]
  | element mem way ih => rw [List.getLast?_cons_of_ne_nil way.ne_nil, ih]

theorem mem_of_singleton {id : PropertyId} (h : Way ps [id] q) : q ∈ ps := by
  cases h with
  | stop mem => exact mem
  | members mem way => exact absurd rfl way.ne_nil
  | element mem way => exact absurd rfl way.ne_nil

theorem pathInList?_eq (h : Way ps path q) (distinct : (idsOfList ps).Nodup) :
    pathInList? q.id ps = some path := by
  induction h with
  | stop mem => exact pathInList?_of_mem distinct mem (path?_self _)
  | @members ps p q path mem way ih =>
    obtain ⟨above, -, apart, -⟩ := (nodup_ids p).1 (nodup_ids_of_mem distinct mem)
    have there : q.id ∈ idsOfList p.members := id_mem_ids way.mem_subtree
    refine pathInList?_of_mem distinct mem ?_
    rw [path?_of_ne fun same => above (same ▸ there), ih apart]
    rfl
  | @element ps p q path mem way ih =>
    obtain ⟨-, above, -, apart, absent⟩ := (nodup_ids p).1 (nodup_ids_of_mem distinct mem)
    have there : q.id ∈ idsOfList p.element.toList := id_mem_ids way.mem_subtree
    have notMember : pathInList? q.id p.members = none :=
      (pathInList?_eq_none_iff q.id p.members).2 fun isMember => absent q.id isMember there
    refine pathInList?_of_mem distinct mem ?_
    rw [path?_of_ne fun same => above (same ▸ there), notMember, ih apart]
    rfl

end Way

end CredentialSchema.Property

import Mathlib.Data.List.Pairwise
import CredentialSchema.Proofs.Property.Spine

/-!
Siblings. Where identifiers are pairwise distinct, a property stands in one list of siblings only,
or it is an element definition. So a shift, which searches list by list, finds the one place at
which its two neighbours stand, and there it exchanges them.
-/
namespace CredentialSchema.Property

variable {id : PropertyId} {dir : Direction} {old new ps qs ms ms' : List Property}

/-- A list of siblings in a forest: the top level, or the members of one property. -/
def Siblings (ps ms : List Property) : Prop := ms = ps ∨ ∃ p ∈ subtreeOfList ps, ms = p.members

theorem Siblings.exists_object (legal : Legal ps) (h : Siblings ps ms) (nonempty : ms ≠ []) :
    ms = ps ∨ ∃ p ∈ subtreeOfList ps, p.kind = .object ∧ ms = p.members := by
  rcases h with rfl | ⟨p, below, rfl⟩
  · exact .inl rfl
  · exact .inr ⟨p, below, (legal p below).1 nonempty, rfl⟩

/-- One of the siblings has another one next to it in some direction. -/
def HasNeighbour (id : PropertyId) (dir : Direction) (ms : List Property) : Prop :=
  ∃ a b, (dir = .up → b.id = id) ∧ (dir = .down → a.id = id) ∧ [a, b] <:+: ms

/-- One of the siblings is the first or, going down, the last of them. -/
def AtBoundary (id : PropertyId) (dir : Direction) (ms : List Property) : Prop :=
  match dir with
  | .up => ∃ p, ms.head? = some p ∧ p.id = id
  | .down => ∃ p, ms.getLast? = some p ∧ p.id = id

/-- The identifier is that of an element definition. -/
def IsElement (id : PropertyId) (ps : List Property) : Prop :=
  ∃ p ∈ subtreeOfList ps, ∃ q, p.element = some q ∧ q.id = id

def childIds (p : Property) : List PropertyId :=
  p.members.map Property.id ++ p.element.toList.map Property.id

mutual
theorem ids_perm_childIds : ∀ p : Property, p.ids.Perm (p.id :: (subtree p).flatMap childIds)
  | ⟨d, ms, e⟩ => by
    have members := idsOfList_perm_childIds ms
    have element := idsOfOption_perm_childIds e
    rw [ids, subtree, List.flatMap_cons, List.flatMap_append, childIds]
    refine .cons d.id ((members.append element).trans ?_)
    simp only [List.append_assoc]
    exact .append_left _ (List.perm_append_comm_assoc _ _ _)

theorem idsOfList_perm_childIds : ∀ ps : List Property,
    (idsOfList ps).Perm (ps.map Property.id ++ (subtreeOfList ps).flatMap childIds)
  | [] => .refl _
  | p :: ps => by
    have first := ids_perm_childIds p
    have rest := idsOfList_perm_childIds ps
    rw [idsOfList, subtreeOfList, List.flatMap_append, List.map_cons]
    exact (first.append rest).trans (.cons p.id (List.perm_append_comm_assoc _ _ _))

theorem idsOfOption_perm_childIds : ∀ e : Option Property, (idsOfOption e).Perm
    (e.toList.map Property.id ++ (subtreeOfOption e).flatMap childIds)
  | none => .refl _
  | some p => ids_perm_childIds p
end

theorem mem_ids_iff (id : PropertyId) (ps : List Property) : id ∈ idsOfList ps ↔
    (∃ ms, Siblings ps ms ∧ id ∈ ms.map Property.id) ∨ IsElement id ps := by
  rw [(idsOfList_perm_childIds ps).mem_iff, List.mem_append, List.mem_flatMap]
  constructor
  · rintro (top | ⟨p, below, child⟩)
    · exact .inl ⟨ps, .inl rfl, top⟩
    · rcases List.mem_append.1 child with isMember | isElement
      · exact .inl ⟨p.members, .inr ⟨p, below, rfl⟩, isMember⟩
      · obtain ⟨q, held, rfl⟩ := List.mem_map.1 isElement
        exact .inr ⟨p, below, q, Option.mem_toList.1 held, rfl⟩
  · rintro (⟨ms, rfl | ⟨p, below, rfl⟩, mem⟩ | ⟨p, below, q, held, rfl⟩)
    · exact .inl mem
    · exact .inr ⟨p, below, List.mem_append_left _ mem⟩
    · refine .inr ⟨p, below, List.mem_append_right _ ?_⟩
      exact List.mem_map_of_mem (Option.mem_toList.2 held)

section Distinct

variable (distinct : (idsOfList ps).Nodup)

include distinct

theorem nodup_childIds : (ps.map Property.id).Nodup ∧
    (∀ p ∈ subtreeOfList ps, (childIds p).Nodup ∧ ∀ id ∈ childIds p, id ∉ ps.map Property.id) ∧
    ∀ p ∈ subtreeOfList ps, ∀ q ∈ subtreeOfList ps, ∀ id ∈ childIds p, id ∈ childIds q → p = q := by
  rw [(idsOfList_perm_childIds ps).nodup_iff, List.nodup_append', List.nodup_flatMap] at distinct
  obtain ⟨top, ⟨each, apart⟩, other⟩ := distinct
  refine ⟨top, fun p below => ⟨each p below, fun id child isTop => ?_⟩, ?_⟩
  · exact other isTop (List.mem_flatMap.2 ⟨p, below, child⟩)
  · intro p below q below' id child child'
    have symmetric : Std.Symm (Function.onFun List.Disjoint childIds) :=
      ⟨fun _ _ disjoint => List.disjoint_symm disjoint⟩
    by_contra differ
    exact apart.forall below below' differ child child'

theorem Siblings.nodup (h : Siblings ps ms) : (ms.map Property.id).Nodup := by
  obtain ⟨top, each, -⟩ := nodup_childIds distinct
  rcases h with rfl | ⟨p, below, rfl⟩
  · exact top
  · exact (each p below).1.of_append_left

theorem Siblings.unique (h : Siblings ps ms) (h' : Siblings ps ms') (mem : id ∈ ms.map Property.id)
    (mem' : id ∈ ms'.map Property.id) : ms = ms' := by
  obtain ⟨-, each, same⟩ := nodup_childIds distinct
  rcases h with rfl | ⟨p, below, rfl⟩ <;> rcases h' with rfl | ⟨q, below', rfl⟩
  · rfl
  · exact absurd mem ((each q below').2 id (List.mem_append_left _ mem'))
  · exact absurd mem' ((each p below).2 id (List.mem_append_left _ mem))
  · rw [same p below q below' id (List.mem_append_left _ mem) (List.mem_append_left _ mem')]

theorem Siblings.not_isElement (h : Siblings ps ms) (mem : id ∈ ms.map Property.id) :
    ¬ IsElement id ps := by
  rintro ⟨q, below, r, held, rfl⟩
  obtain ⟨-, each, same⟩ := nodup_childIds distinct
  have isElement : r.id ∈ q.element.toList.map Property.id :=
    List.mem_map_of_mem (Option.mem_toList.2 held)
  have child : r.id ∈ childIds q := List.mem_append_right _ isElement
  rcases h with rfl | ⟨p, below', rfl⟩
  · exact (each q below).2 r.id child mem
  · obtain rfl := same p below' q below r.id (List.mem_append_left _ mem) child
    exact List.disjoint_of_nodup_append (each p below).1 mem isElement

end Distinct

theorem exists_splice_of_mem_subtree (new before after : List Property) {p q : Property}
    (below : q ∈ subtree p) (held : q.members = before ++ old ++ after) :
    ∃ p', Splice old new [p] [p'] := by
  induction p using induct with
  | node d ms e members element =>
    rw [subtree, subtreeOfOption_eq, List.mem_cons, List.mem_append, mem_subtreeOfList,
      mem_subtreeOfList] at below
    rcases below with rfl | ⟨m, isMember, below⟩ | ⟨m, isElement, below⟩
    · obtain rfl : ms = before ++ old ++ after := held
      exact ⟨_, .inMembers [] [] d e (.here before after)⟩
    · obtain ⟨m', spliced⟩ := members m isMember below
      obtain ⟨front, back, rfl⟩ := List.append_of_mem isMember
      exact ⟨_, .inMembers [] [] d e (by simpa using spliced.frame front back)⟩
    · obtain rfl : e = some m := by simpa using isElement
      obtain ⟨m', spliced⟩ := element m rfl below
      exact ⟨⟨d, ms, some m'⟩, .inElement [] [] d ms spliced⟩

theorem Siblings.exists_splice (new : List Property) {before after : List Property}
    (h : Siblings ps (before ++ old ++ after)) : ∃ qs, Splice old new ps qs := by
  rcases h with rfl | ⟨q, below, held⟩
  · exact ⟨_, .here before after⟩
  · obtain ⟨p, isTop, below⟩ := mem_subtreeOfList.1 below
    obtain ⟨p', spliced⟩ := exists_splice_of_mem_subtree new before after below held.symm
    obtain ⟨front, back, rfl⟩ := List.append_of_mem isTop
    exact ⟨_, by simpa using spliced.frame front back⟩

theorem Siblings.of_inner {d : Declaration} {e : Option Property} {before after : List Property}
    {inner : List Property} (inside : inner = ms ∨ inner = e.toList)
    (h : ∃ p ∈ subtreeOfList inner, ms' = p.members) :
    Siblings (before ++ ⟨d, ms, e⟩ :: after) ms' := by
  obtain ⟨p, below, rfl⟩ := h
  refine .inr ⟨p, ?_, rfl⟩
  rcases inside with rfl | rfl <;> simp [subtreeOfList, subtree, below]

theorem Splice.exists_siblings (h : Splice old new ps qs) (several : 2 ≤ old.length) :
    ∃ ms, Siblings ps ms ∧ old <:+: ms := by
  induction h with
  | here before after => exact ⟨_, .inl rfl, List.infix_append before old after⟩
  | @inMembers before after d e ms ms' _ ih =>
    obtain ⟨run, rfl | nested, isInfix⟩ := ih
    · exact ⟨run, .inr ⟨⟨d, run, e⟩, by simp [subtreeOfList, subtree], rfl⟩, isInfix⟩
    · exact ⟨run, .of_inner (.inl rfl) nested, isInfix⟩
  | @inElement before after d ms e e' _ ih =>
    obtain ⟨run, rfl | nested, isInfix⟩ := ih
    · have short : e.toList.length ≤ 1 := by cases e <;> simp
      have fits := isInfix.length_le
      omega
    · exact ⟨run, .of_inner (.inr rfl) nested, isInfix⟩

theorem HasNeighbour.mem (h : HasNeighbour id dir ms) : id ∈ ms.map Property.id := by
  obtain ⟨a, b, up, down, isInfix⟩ := h
  cases dir with
  | up => exact up rfl ▸ List.mem_map_of_mem (isInfix.subset (by simp))
  | down => exact down rfl ▸ List.mem_map_of_mem (isInfix.subset (by simp))

theorem AtBoundary.mem {id : PropertyId} {dir : Direction} {ms : List Property}
    (h : AtBoundary id dir ms) : id ∈ ms.map Property.id := by
  cases dir with
  | up =>
    obtain ⟨p, first, rfl⟩ := h
    exact List.mem_map_of_mem (List.mem_of_head? first)
  | down =>
    obtain ⟨p, last, rfl⟩ := h
    exact List.mem_map_of_mem (List.mem_of_getLast? last)

theorem hasNeighbour_or_atBoundary (dir : Direction) (mem : id ∈ ms.map Property.id) :
    HasNeighbour id dir ms ∨ AtBoundary id dir ms := by
  obtain ⟨p, isListed, rfl⟩ := List.mem_map.1 mem
  obtain ⟨before, after, rfl⟩ := List.append_of_mem isListed
  cases dir with
  | up =>
    rcases List.eq_nil_or_concat before with rfl | ⟨front, a, rfl⟩
    · exact .inr ⟨p, rfl, rfl⟩
    · exact .inl ⟨a, p, fun _ => rfl, nofun, front, after, by simp⟩
  | down =>
    cases after with
    | nil => exact .inr ⟨p, by simp, rfl⟩
    | cons b back => exact .inl ⟨p, b, nofun, fun _ => rfl, before, back, by simp⟩

theorem HasNeighbour.not_atBoundary (distinct : (ms.map Property.id).Nodup)
    (h : HasNeighbour id dir ms) : ¬ AtBoundary id dir ms := by
  obtain ⟨a, b, up, down, before, after, rfl⟩ := h
  rw [List.append_assoc, List.map_append, List.nodup_append'] at distinct
  obtain ⟨-, run, apart⟩ := distinct
  cases dir with
  | up =>
    rintro ⟨p, first, same⟩
    have isLater : id ∈ ([a, b] ++ after).map Property.id := by simp [up rfl]
    cases before with
    | nil =>
      obtain rfl : a = p := Option.some.inj first
      simp [same, up rfl] at run
    | cons x before =>
      obtain rfl : x = p := Option.some.inj first
      exact apart (by simp [same]) isLater
  | down =>
    rintro ⟨p, last, same⟩
    have split : before ++ [a, b] ++ after = (before ++ [a]) ++ b :: after := by simp
    rw [split, List.getLast?_append_cons] at last
    have isLater : id ∈ (b :: after).map Property.id :=
      List.mem_map.2 ⟨p, List.mem_of_getLast? last, same⟩
    exact (List.nodup_cons.1 run).1 (down rfl ▸ isLater)

theorem Shifted.opposite {ps qs : List Property} (h : Shifted id dir ps qs) :
    Shifted id dir.opposite qs ps := by
  obtain ⟨a, b, up, down, spliced⟩ := h
  refine ⟨b, a, ?_, ?_, spliced.symm⟩
  · cases dir <;> simp_all [Direction.opposite]
  · cases dir <;> simp_all [Direction.opposite]

theorem Shifted.mem_ids (h : Shifted id dir ps qs) : id ∈ idsOfList ps := by
  obtain ⟨a, b, up, down, spliced⟩ := h
  obtain ⟨spine, splicedAt⟩ := spliced.exists_spine
  cases dir with
  | up => exact up rfl ▸ splicedAt.id_mem (by simp)
  | down => exact down rfl ▸ splicedAt.id_mem (by simp)

theorem ne_of_not_mem_ids {p : Property} (absent : id ∉ p.ids) : p.id ≠ id := by
  rintro rfl
  cases p
  exact absent List.mem_cons_self

theorem head_ne_of_not_mem_ids (absent : id ∉ idsOfList ps) : ∀ q ∈ ps.head?, q.id ≠ id := by
  rintro q first rfl
  exact absent (id_mem_ids (mem_subtreeOfList_of_mem (List.mem_of_head? first)))

theorem raiseOver?_eq_none {p : Property} {ps : List Property}
    (next : dir = .up → ∀ q ∈ ps.head?, q.id ≠ id) : raiseOver? id dir p ps = none := by
  cases ps with
  | nil => rfl
  | cons q ps => exact if_neg fun ⟨up, same⟩ => next up q rfl same

mutual
theorem shiftBelow_of_absent (dir : Direction) :
    ∀ {p : Property}, id ∉ p.ids → shiftBelow id dir p = .absent
  | ⟨d, ms, e⟩, absent => by
    rw [ids, List.mem_cons, List.mem_append, not_or, not_or] at absent
    rw [shiftBelow, shiftInList_of_absent dir absent.2.1, shiftInOption_of_absent dir absent.2.2]
    rfl

theorem shiftInList_of_absent (dir : Direction) :
    ∀ {ps : List Property}, id ∉ idsOfList ps → shiftInList id dir ps = .absent
  | [], _ => rfl
  | p :: ps, absent => by
    rw [idsOfList, List.mem_append, not_or] at absent
    rw [shiftInList, if_neg (ne_of_not_mem_ids absent.1), shiftBelow_of_absent dir absent.1]
    simp only [raiseOver?_eq_none fun _ => head_ne_of_not_mem_ids absent.2,
      shiftInList_of_absent dir absent.2, Shift.map]

theorem shiftInOption_of_absent (dir : Direction) :
    ∀ {e : Option Property}, id ∉ idsOfOption e → shiftInOption id dir e = .absent
  | none, _ => rfl
  | some p, absent => by
    rw [shiftInOption, if_neg (ne_of_not_mem_ids absent), shiftBelow_of_absent dir absent]
    rfl
end

/-- A shift passes over siblings that it does not concern. -/
theorem shiftInList_append {before ps : List Property} (absent : id ∉ idsOfList before)
    (next : dir = .up → ∀ q ∈ ps.head?, q.id ≠ id) :
    shiftInList id dir (before ++ ps) = (shiftInList id dir ps).map (before ++ ·) := by
  induction before with
  | nil => cases h : shiftInList id dir ps <;> simp [h, Shift.map]
  | cons p before ih =>
    rw [idsOfList, List.mem_append, not_or] at absent
    have first : dir = .up → ∀ q ∈ (before ++ ps).head?, q.id ≠ id := by
      cases before with
      | nil => exact next
      | cons q before =>
        rintro - _ ⟨⟩
        exact head_ne_of_not_mem_ids absent.2 q rfl
    rw [List.cons_append, shiftInList, if_neg (ne_of_not_mem_ids absent.1),
      shiftBelow_of_absent dir absent.1]
    simp only [raiseOver?_eq_none first, ih absent.2]
    cases shiftInList id dir ps <;> rfl

theorem shiftInList_of_shiftBelow {p p' : Property} {after : List Property} (other : p.id ≠ id)
    (shifted : shiftBelow id dir p = .moved p') :
    shiftInList id dir (p :: after) = .moved (p' :: after) := by
  rw [shiftInList, if_neg other, shifted]
  rfl

theorem shiftInList_below {before after : List Property} {p p' : Property}
    (distinct : (idsOfList (before ++ p :: after)).Nodup) (below : id ∈ p.ids) (other : p.id ≠ id)
    (shifted : shiftBelow id dir p = .moved p') :
    shiftInList id dir (before ++ p :: after) = .moved (before ++ p' :: after) := by
  have notBefore := (not_mem_ids_around distinct below).1
  rw [shiftInList_append notBefore fun _ q first => by
    obtain rfl := Option.some.inj first
    exact other]
  rw [shiftInList_of_shiftBelow other shifted, Shift.map]

theorem shiftInOption_of_shiftInList {e e' : Option Property}
    (h : shiftInList id dir e.toList = .moved e'.toList) : shiftInOption id dir e = .moved e' := by
  cases e with
  | none => cases h
  | some p =>
    rw [Option.toList_some, shiftInList] at h
    rw [shiftInOption]
    split at h
    · cases h
    · next other =>
      rw [if_neg other]
      cases below : shiftBelow id dir p with
      | absent => simp [below, raiseOver?, shiftInList, Shift.map] at h
      | stuck => simp [below, Shift.map] at h
      | moved p' =>
        rw [below] at h
        simpa [Shift.map] using congrArg List.head? (Shift.moved.inj h)

theorem shiftInList_swap {before after : List Property} {a b : Property}
    (up : dir = .up → b.id = id) (down : dir = .down → a.id = id)
    (absent : id ∉ idsOfList before) (first : dir = .up → id ∉ a.ids) :
    shiftInList id dir (before ++ a :: b :: after) = .moved (before ++ b :: a :: after) := by
  rw [shiftInList_append absent fun up q head => by
    obtain rfl := Option.some.inj head
    exact ne_of_not_mem_ids (first up)]
  cases dir with
  | up =>
    rw [shiftInList, if_neg (ne_of_not_mem_ids (first rfl)), shiftBelow_of_absent .up (first rfl)]
    simp [raiseOver?, up rfl, Shift.map]
  | down =>
    rw [shiftInList, if_pos (down rfl), shiftFirst, Shift.map]

/-- Where no identifier comes twice, a shift finds the neighbours that are to be exchanged. -/
theorem Shifted.eq_moved (h : Shifted id dir ps qs) (distinct : (idsOfList ps).Nodup) :
    shiftInList id dir ps = .moved qs := by
  obtain ⟨a, b, up, down, spliced⟩ := h
  have inRun : id ∈ idsOfList [a, b] := by
    cases dir with
    | up => exact up rfl ▸ id_mem_ids (mem_subtreeOfList_of_mem (by simp))
    | down => exact down rfl ▸ id_mem_ids (mem_subtreeOfList_of_mem (by simp))
  induction spliced with
  | here before after =>
    rw [List.append_assoc, idsOfList_append, idsOfList_append, List.nodup_append'] at distinct
    obtain ⟨-, run, apart⟩ := distinct
    rw [List.append_assoc, List.append_assoc]
    refine shiftInList_swap up down (fun earlier => ?_) fun isUp inFirst => ?_
    · exact apart earlier (List.mem_append_left _ inRun)
    · have inSecond : id ∈ b.ids := by
        obtain rfl := up isUp
        cases b
        exact List.mem_cons_self
      simp only [idsOfList, List.nodup_append'] at run
      exact run.1.2.2 inFirst (List.mem_append_left _ inSecond)
  | @inMembers before after d e ms ms' inner ih =>
    obtain ⟨notMember, -, apart, -⟩ := nodup_node distinct
    obtain ⟨spine, innerAt⟩ := inner.exists_spine
    have here := innerAt.subset_ids inRun
    have other : d.id ≠ id := by
      rintro rfl
      exact notMember here
    refine shiftInList_below distinct ?_ other ?_
    · exact List.mem_cons_of_mem _ (List.mem_append_left _ here)
    · rw [shiftBelow, ih apart]
      rfl
  | @inElement before after d ms e e' inner ih =>
    obtain ⟨-, notElement, -, apart, absent⟩ := nodup_node distinct
    obtain ⟨spine, innerAt⟩ := inner.exists_spine
    have here := innerAt.subset_ids inRun
    have other : d.id ≠ id := by
      rintro rfl
      exact notElement here
    refine shiftInList_below distinct ?_ other ?_
    · exact List.mem_cons_of_mem _ (List.mem_append_right _ (by simpa using here))
    · -- The members are searched first, and the neighbours are not below them.
      have members := shiftInList_of_absent dir fun among => absent id among here
      rw [shiftBelow, members, shiftInOption_of_shiftInList (ih apart)]
      rfl

end CredentialSchema.Property

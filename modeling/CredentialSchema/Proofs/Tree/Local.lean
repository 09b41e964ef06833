import CredentialSchema.Proofs.Property.Patched
import CredentialSchema.Proofs.Property.Spine
import CredentialSchema.Proofs.Tree.Atomic
import CredentialSchema.Proofs.Tree.Change

/-!
Changes stay where they are made. An operation is about one property. What is neither on the way
down to it nor below it is left alone; what is on the way keeps its own fields and, up to the one
place where the property is taken out or changes places with a neighbour, the properties that it
holds; and the property itself becomes what the operation says.
-/
namespace CredentialSchema.Tree

open Property hiding id

/-- Whether a property lies on the way from the top level down to another, both included. -/
def Leads (t : Tree) (above below : PropertyId) : Prop := ∃ way ∈ t.path? below, above ∈ way

/-- What an operation on one property leaves of the others, where it arranges anew the identifiers
in a list of siblings. -/
structure Frame (id : PropertyId) (Arranges : List PropertyId → List PropertyId → Prop)
    (t t' : Tree) : Prop where
  apart : ∀ other ∈ t.ids, ¬ t.Leads id other → ¬ t.Leads other id →
    t'.find? other = t.find? other ∧ t'.path? other = t.path? other
  above : ∀ other ≠ id, t.Leads other id → ∃ p p', t.find? other = some p ∧
    t'.find? other = some p' ∧ p'.decl = p.decl ∧
      Arranges (p.members.map Property.id) (p'.members.map Property.id) ∧
        Arranges (p.element.toList.map Property.id) (p'.element.toList.map Property.id)
  top : Arranges (t.roots.map Property.id) (t'.roots.map Property.id)

/-- A list that holds an identifier has a run of identifiers exchanged, and any other is kept. -/
def Rearranged (id : PropertyId) (run run' ids ids' : List PropertyId) : Prop :=
  id ∉ ids ∧ ids' = ids ∨
    ∃ before after, ids = before ++ run ++ after ∧ ids' = before ++ run' ++ after

def Edit.Local : Edit → IdSource → Tree → Tree → Prop
  | .add none, s, t, t' =>
    (∀ id ∈ t.ids, t'.find? id = t.find? id ∧ t'.path? id = t.path? id) ∧
      t'.roots = t.roots ++ [.fresh (s.ahead 0) .string ""]
  | .add (some id), s, t, t' =>
    Frame id (fun ids ids' => ids' = ids) t t' ∧ ∃ p, t.find? id = some p ∧
      t'.find? id = some { p with members := p.members ++ [.fresh (s.ahead 0) .string ""] }
  | .delete id, _, t, t' =>
    Frame id (Rearranged id [id] []) t t' ∧ ∃ p, t.find? id = some p ∧
      t.delete? id = some (p, t') ∧ ∀ below ∈ p.ids, below ∉ t'.ids
  | .move id dir, _, t, t' =>
    (∃ other, Frame id (match dir with
      | .up => Rearranged id [other, id] [id, other]
      | .down => Rearranged id [id, other] [other, id]) t t') ∧
      ∃ p, t.find? id = some p ∧ t'.find? id = some p
  | .update id u, _, t, t' =>
    Frame id (fun ids ids' => ids' = ids) t t' ∧ ∃ p p', t.find? id = some p ∧
      t'.find? id = some p' ∧ Patched u p p'
  | .setElement id kind, s, t, t' =>
    Frame id (fun ids ids' => ids' = ids) t t' ∧ ∃ p, t.find? id = some p ∧
      t'.find? id = some { p with element := some (.fresh (s.ahead 0) kind p.name) }
  -- An import is told by its report, never as one change.
  | .importInto _ _, _, _, _ => False

variable {t t' : Tree} {s : IdSource} {id : PropertyId} {old new ps qs : List Property}
  {Arranges : List PropertyId → List PropertyId → Prop}

theorem map_id_of_exchange (h : Exchange old new ps qs)
    (same : new.map Property.id = old.map Property.id) :
    qs.map Property.id = ps.map Property.id := by
  rcases h with ⟨kept, -⟩ | ⟨before, after, rfl, rfl⟩
  · exact kept
  · simp only [List.map_append, same]

theorem rearranged_of_exchange (h : Exchange old new ps qs) {r : Property} (mem : r ∈ old) :
    Rearranged r.id (old.map Property.id) (new.map Property.id) (ps.map Property.id)
      (qs.map Property.id) := by
  rcases h with ⟨kept, apart⟩ | ⟨before, after, rfl, rfl⟩
  · exact .inl ⟨apart r mem, kept⟩
  · exact .inr ⟨before.map Property.id, after.map Property.id, by simp, by simp⟩

/-- The run that a splice exchanges is reached through the spine, so what the identifier leads to
and what leads to it are told apart from everything else by their ways. -/
theorem frame_of_splice (distinct : t.ids.Nodup) (spliced : Splice old new t.roots t'.roots)
    (way : pathInList? id old = some [id])
    (same : ∀ other ∈ t.ids, (∀ trail, pathInList? other old = some trail → id ∉ trail) →
      findInList? other new = findInList? other old ∧
        pathInList? other new = pathInList? other old)
    (arranges : ∀ ps qs, Exchange old new ps qs →
      Arranges (ps.map Property.id) (qs.map Property.id)) :
    Frame id Arranges t t' := by
  obtain ⟨spine, spliced⟩ := spliced.exists_spine
  have toId : t.path? id = some (spine ++ [id]) := spliced.path_spine distinct way
  refine ⟨fun other known notBelow notAbove => ?_, fun other isOther leads => ?_,
    arranges _ _ (spliced.exchange distinct)⟩
  · obtain ⟨find, path⟩ := same other known fun trail found inTrail =>
      notBelow ⟨_, spliced.path_spine distinct found, List.mem_append_right _ inTrail⟩
    have off : other ∉ spine := fun on => notAbove ⟨_, toId, List.mem_append_left _ on⟩
    exact ⟨spliced.find_eq off find, spliced.path_eq path⟩
  · obtain ⟨trail, found, inTrail⟩ := leads
    obtain rfl : spine ++ [id] = trail := Option.some.inj (toId.symm.trans found)
    have on : other ∈ spine := by simpa [isOther] using inTrail
    obtain ⟨p, p', hp, hp', decl, members, element⟩ := spliced.above distinct on
    exact ⟨p, p', hp, hp', decl, arranges _ _ members, arranges _ _ element⟩

theorem frame_of_single {p : Property} (distinct : t.ids.Nodup)
    (spliced : Splice [p] new t.roots t'.roots)
    (own : ∀ other ∈ t.ids, other ∈ idsOfList new → other ∈ p.ids)
    (arranges : ∀ ps qs, Exchange [p] new ps qs →
      Arranges (ps.map Property.id) (qs.map Property.id)) :
    Frame p.id Arranges t t' := by
  refine frame_of_splice distinct spliced ?_ (fun other known notBelow => ?_) arranges
  · simp [pathInList?, path?_self]
  · have absent : other ∉ p.ids := fun mem => by
      obtain ⟨trail, found⟩ := exists_path?_of_mem mem
      exact notBelow (p.id :: trail) (by simp [pathInList?, found]) List.mem_cons_self
    have absentNew : other ∉ idsOfList new := fun mem => absent (own other known mem)
    have notIn : other ∉ idsOfList [p] := by simpa [idsOfList] using absent
    rw [(findInList?_eq_none_iff other new).2 absentNew,
      (pathInList?_eq_none_iff other new).2 absentNew,
      (findInList?_eq_none_iff other [p]).2 notIn, (pathInList?_eq_none_iff other [p]).2 notIn]
    exact ⟨rfl, rfl⟩

theorem local_of_modify? {f : Property → Property} (distinct : t.ids.Nodup)
    (h : t.modify? id f = some t') (sameId : ∀ p, (f p).id = p.id)
    (own : ∀ p, ∀ other ∈ t.ids, other ∈ (f p).ids → other ∈ p.ids) :
    Frame id (fun ids ids' => ids' = ids) t t' ∧
      ∃ p, t.find? id = some p ∧ t'.find? id = some (f p) := by
  obtain ⟨p, found, spliced⟩ := modify?_splice h
  have isTarget : p.id = id := (mem_subtreeOfList_of_find? found).2
  refine ⟨?_, p, found, ?_⟩
  · rw [← isTarget]
    refine frame_of_single distinct spliced (fun other known mem => ?_) fun ps qs exchange =>
      map_id_of_exchange exchange (by simp [sameId])
    exact own p other known (by simpa [idsOfList] using mem)
  · obtain ⟨roots, modified, rfl⟩ := Option.map_eq_some_iff.1 h
    exact findInList?_modifyInList? sameId modified found

theorem add_local {fresh : PropertyId} (distinct : t.ids.Nodup) (isNew : s.ahead 0 ∉ t.ids)
    {parent : Option PropertyId} (h : t.add (s.ahead 0) parent = .ok (some (fresh, t'))) :
    Edit.Local (.add parent) s t t' := by
  rcases add_cases h with ⟨rfl, rfl⟩ | ⟨holder, -, rfl, -, -, modified⟩
  · refine ⟨fun id known => ?_, rfl⟩
    have other : s.ahead 0 ≠ id := fun same => isNew (same ▸ known)
    simp [Tree.find?, Tree.path?, advance, findInList?_append, pathInList?_append, findInList?,
      pathInList?, Property.fresh, Property.find?, Property.path?, findInOption?, other]
  · refine local_of_modify? distinct modified (fun p => rfl) fun p other known mem => ?_
    obtain ⟨d, ms, e⟩ := p
    have old : other ≠ s.ahead 0 := fun same => isNew (same ▸ known)
    simpa [Property.ids, idsOfList, Property.fresh, old] using mem

theorem setElement_local {fresh : PropertyId} (distinct : t.ids.Nodup) (isNew : s.ahead 0 ∉ t.ids)
    {kind : Kind} (h : t.setElement (s.ahead 0) id kind = .ok (some (fresh, t'))) :
    Edit.Local (.setElement id kind) s t t' := by
  obtain ⟨-, -, -, modified⟩ := setElement_cases h
  refine local_of_modify? distinct modified (fun p => rfl) fun p other known mem => ?_
  obtain ⟨d, ms, e⟩ := p
  have old : other ≠ s.ahead 0 := fun same => isNew (same ▸ known)
  have inKept : other = d.id ∨ other ∈ idsOfList ms := by
    simpa [Property.ids, idsOfList, Property.fresh, old] using mem
  rcases inKept with rfl | isMember
  · exact List.mem_cons_self
  · exact List.mem_cons_of_mem _ (List.mem_append_left _ isMember)

theorem update?_local {u : Patch} (distinct : t.ids.Nodup) (h : t.update? id u = some t') :
    Edit.Local (.update id u) s t t' := by
  obtain ⟨frame, p, found, found'⟩ := local_of_modify? distinct h (id_patch u)
    fun p other _ mem => (ids_patch_sublist u p).subset mem
  exact ⟨frame, p, patch u p, found, found', patched_patch u p⟩

theorem delete?_local {gone : Property} (distinct : t.ids.Nodup)
    (h : t.delete? id = some (gone, t')) : Edit.Local (.delete id) s t t' := by
  obtain ⟨⟨gone', roots⟩, removed, same⟩ := Option.map_eq_some_iff.1 h
  obtain ⟨rfl, rfl⟩ := Prod.mk.inj same
  obtain ⟨rfl, spliced⟩ := removeInList?_splice removed
  refine ⟨?_, gone', ?_, h, ?_⟩
  · refine frame_of_single distinct spliced (by simp [idsOfList]) fun ps qs exchange => ?_
    exact rearranged_of_exchange exchange (List.mem_singleton_self gone')
  · obtain ⟨spine, splicedAt⟩ := spliced.exists_spine
    exact findInList?_of_mem distinct
      (splicedAt.subset_subtree (mem_subtreeOfList_of_mem List.mem_cons_self))
  · obtain ⟨before, after, old, new⟩ := spliced.ids
    intro below mem
    rw [Tree.ids, old, List.append_assoc, List.nodup_append', List.nodup_append'] at distinct
    obtain ⟨-, ⟨-, -, notAfter⟩, notBefore⟩ := distinct
    have inRun : below ∈ idsOfList [gone'] := by simpa [idsOfList] using mem
    rw [Tree.ids, advance, new, idsOfList, List.append_nil, List.mem_append, not_or]
    exact ⟨fun earlier => notBefore earlier (List.mem_append_left _ inRun), notAfter inRun⟩

theorem walks_swap {a b : Property} (distinct : (idsOfList [a, b]).Nodup) (other : PropertyId) :
    findInList? other [b, a] = findInList? other [a, b] ∧
      pathInList? other [b, a] = pathInList? other [a, b] := by
  by_cases inFirst : other ∈ a.ids
  · have absent := (@not_mem_ids_around [] [b] a distinct other inFirst).2
    have notSecond : other ∉ b.ids := by simpa [idsOfList] using absent
    simp [findInList?, pathInList?, (find?_eq_none_iff other b).2 notSecond,
      (path?_eq_none_iff other b).2 notSecond]
  · simp [findInList?, pathInList?, (find?_eq_none_iff other a).2 inFirst,
      (path?_eq_none_iff other a).2 inFirst]

theorem local_of_swap {a b r : Property} (distinct : t.ids.Nodup)
    (spliced : Splice [a, b] [b, a] t.roots t'.roots) (mem : r ∈ [a, b]) :
    Frame r.id (Rearranged r.id [a.id, b.id] [b.id, a.id]) t t' ∧
      ∃ p, t.find? r.id = some p ∧ t'.find? r.id = some p := by
  obtain ⟨spine, splicedAt⟩ := spliced.exists_spine
  have apart : (idsOfList [a, b]).Nodup := by
    obtain ⟨before, after, old, -⟩ := spliced.ids
    rw [Tree.ids, old] at distinct
    exact distinct.of_append_left.of_append_right
  have swapped := walks_swap apart
  have below := mem_subtreeOfList_of_mem mem
  refine ⟨?_, r, findInList?_of_mem distinct (splicedAt.subset_subtree below), ?_⟩
  · refine frame_of_splice distinct spliced (pathInList?_of_mem apart mem (path?_self r))
      (fun other _ _ => swapped other) fun ps qs exchange => rearranged_of_exchange exchange mem
  · have off := splicedAt.not_mem_spine distinct (id_mem_ids below)
    exact (splicedAt.find_eq off (swapped r.id).1).trans
      (findInList?_of_mem distinct (splicedAt.subset_subtree below))

theorem move?_local {dir : Direction} (distinct : t.ids.Nodup) (h : t.move? id dir = some t') :
    Edit.Local (.move id dir) s t t' := by
  obtain ⟨roots, ⟨a, b, up, down, spliced⟩, rfl⟩ := move?_cases h
  have spliced : Splice [a, b] [b, a] t.roots (t.advance roots).roots := spliced
  cases dir with
  | up =>
    obtain rfl := up rfl
    obtain ⟨frame, found⟩ := local_of_swap distinct spliced
      (List.mem_cons_of_mem a List.mem_cons_self)
    exact ⟨⟨a.id, frame⟩, found⟩
  | down =>
    obtain rfl := down rfl
    obtain ⟨frame, found⟩ := local_of_swap distinct spliced
      List.mem_cons_self
    exact ⟨⟨b.id, frame⟩, found⟩

/-- A call that is carried out is about one property, or adds one to the top level. Whatever is
neither on the way down to that property nor below it is found as before, along the same path; what
is on the way keeps its declaration and the identifiers of what it holds, but that the property is
missing or stands on the other side of its neighbour in the list that held it; and the property
itself has one more member, has exactly the patched fields, has a new element definition, is as it
was, or is gone with everything below it. -/
theorem changes_locally {e : Edit} {x : Tree × IdSource} (distinct : x.1.ids.Nodup)
    (fresh : x.2.Fresh (e.perform x).2 x.1.ids) (applied : e.answer x = .applied) :
    e.Local x.2 x.1 (e.perform x).1 := by
  obtain ⟨t, s⟩ := x
  have isNew (drawn : (e.perform (t, s)).2 = s.advance 1) : s.ahead 0 ∉ t.ids :=
    fresh.absent _ (by simp [drawn])
  cases e with
  | add parent =>
    rcases h : t.add (s.ahead 0) parent with v | _ | ⟨id, t'⟩
    · simp [Edit.answer, h, Answer.ofExcept] at applied
    · simp [Edit.answer, h, Answer.ofExcept, Answer.ofOption] at applied
    · simp only [Edit.perform, h] at isNew ⊢
      exact add_local distinct (isNew trivial) h
  | delete id =>
    rcases h : t.delete? id with _ | ⟨gone, t'⟩
    · simp [Edit.answer, h, Answer.ofOption] at applied
    · simp only [Edit.perform, h, Option.map_some, Option.getD_some]
      exact delete?_local distinct h
  | move id dir =>
    rcases h : t.move? id dir with _ | t'
    · simp [Edit.answer, h, Answer.ofOption] at applied
    · simp only [Edit.perform, h, Option.getD_some]
      exact move?_local distinct h
  | update id u =>
    rcases h : t.update? id u with _ | t'
    · simp [Edit.answer, h, Answer.ofOption] at applied
    · simp only [Edit.perform, h, Option.getD_some]
      exact update?_local distinct h
  | setElement id kind =>
    rcases h : t.setElement (s.ahead 0) id kind with v | _ | ⟨elementId, t'⟩
    · simp [Edit.answer, h, Answer.ofExcept] at applied
    · simp [Edit.answer, h, Answer.ofExcept, Answer.ofOption] at applied
    · simp only [Edit.perform, h] at isNew ⊢
      exact setElement_local distinct (isNew trivial) h
  | importInto target cs =>
    simp only [Edit.answer] at applied
    split at applied <;> cases applied

/-- An array of arrays inside an object gets a new name, next to another property. -/
theorem changes_locally_renamed_array : ∃ (x : Tree × IdSource) (e : Edit), x.1.size = 5 ∧
    x.1.ids.Nodup ∧ x.2.Fresh (e.perform x).2 x.1.ids ∧ e.answer x = .applied ∧
      e.Local x.2 x.1 (e.perform x).1 := by
  let source : IdSource := ⟨Uuid.numbered, 0⟩
  let deep : Property := .fresh (source.ahead 4) .string "tags"
  let inner := { Property.fresh (source.ahead 3) .array "tags" with element := some deep }
  let array := { Property.fresh (source.ahead 2) .array "tags" with element := some inner }
  let holder := { Property.fresh (source.ahead 1) .object "person" with members := [array] }
  let x : Tree × IdSource :=
    (⟨[.fresh (source.ahead 0) .string "title", holder], 0⟩, source.advance 5)
  let e : Edit := .update (source.ahead 2) { name := some "labels" }
  have distinct : x.1.ids.Nodup := by decide +kernel
  have fresh : x.2.Fresh (e.perform x).2 x.1.ids := by decide +kernel
  have applied : e.answer x = .applied := by decide +kernel
  exact ⟨x, e, by decide +kernel, distinct, fresh, applied, changes_locally distinct fresh applied⟩

end CredentialSchema.Tree

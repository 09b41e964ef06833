import CredentialSchema.Proofs.Property.Everywhere
import CredentialSchema.Proofs.Property.Siblings
import CredentialSchema.Proofs.Tree.Run

/-!
Moves exchange neighbours. A move that is made is a splice of two siblings, so a move back undoes it
and a sequence of them at most reorders siblings. Whether one is made is a question of who stands
where among the siblings, of which no property has two lists where identifiers are pairwise
distinct.
-/
namespace CredentialSchema

namespace Property

variable {ps qs rs : List Property}

/-- The same property, but that its members may stand in another order. -/
structure SameNode (p q : Property) : Prop where
  decl : q.decl = p.decl
  members : (q.members.map Property.id).Perm (p.members.map Property.id)
  element : q.element.map Property.id = p.element.map Property.id

/-- Two forests of the same properties, but that siblings may stand in another order. -/
structure Reordered (ps qs : List Property) : Prop where
  ids : (idsOfList qs).Perm (idsOfList ps)
  top : (qs.map Property.id).Perm (ps.map Property.id)
  each : ∀ p ∈ subtreeOfList ps, ∃ q ∈ subtreeOfList qs, SameNode p q

theorem SameNode.refl (p : Property) : SameNode p p := ⟨rfl, .refl _, rfl⟩

theorem Reordered.refl (ps : List Property) : Reordered ps ps :=
  ⟨.refl _, .refl _, fun p below => ⟨p, below, .refl p⟩⟩

theorem Reordered.trans (h : Reordered ps qs) (h' : Reordered qs rs) : Reordered ps rs := by
  refine ⟨h'.ids.trans h.ids, h'.top.trans h.top, fun p below => ?_⟩
  obtain ⟨q, below', same⟩ := h.each p below
  obtain ⟨r, below'', same'⟩ := h'.each q below'
  exact ⟨r, below'', same'.decl.trans same.decl, same'.members.trans same.members,
    same'.element.trans same.element⟩

theorem exists_sameNode (before after : List Property) {d : Declaration} {ms ms' : List Property}
    {e e' : Option Property} (own : SameNode ⟨d, ms, e⟩ ⟨d, ms', e'⟩)
    (members : ∀ p ∈ subtreeOfList ms, ∃ q ∈ subtreeOfList ms', SameNode p q)
    (element : ∀ p ∈ subtreeOfList e.toList, ∃ q ∈ subtreeOfList e'.toList, SameNode p q) :
    ∀ p ∈ subtreeOfList (before ++ ⟨d, ms, e⟩ :: after),
      ∃ q ∈ subtreeOfList (before ++ ⟨d, ms', e'⟩ :: after), SameNode p q := by
  intro p below
  rw [mem_subtreeOfList_cons] at below
  simp only [mem_subtreeOfList_cons]
  rcases below with earlier | rfl | isMember | isElement | later
  · exact ⟨p, .inl earlier, .refl p⟩
  · exact ⟨_, .inr (.inl rfl), own⟩
  · obtain ⟨q, below, same⟩ := members p isMember
    exact ⟨q, .inr (.inr (.inl below)), same⟩
  · obtain ⟨q, below, same⟩ := element p isElement
    exact ⟨q, .inr (.inr (.inr (.inl below))), same⟩
  · exact ⟨p, .inr (.inr (.inr (.inr later))), .refl p⟩

theorem top_perm_of_splice {a b : Property} (h : Splice [a, b] [b, a] ps qs) :
    (qs.map Property.id).Perm (ps.map Property.id) := by
  cases h with
  | here before after =>
    exact ((List.Perm.swap a b []).append_left before |>.append_right after).map Property.id
  | inMembers before after d e _ => simp
  | inElement before after d ms _ => simp

theorem exists_sameNode_of_splice {a b : Property} (h : Splice [a, b] [b, a] ps qs) :
    ∀ p ∈ subtreeOfList ps, ∃ q ∈ subtreeOfList qs, SameNode p q := by
  have itself (rs : List Property) : ∀ p ∈ subtreeOfList rs, ∃ q ∈ subtreeOfList rs, SameNode p q :=
    fun p below => ⟨p, below, .refl p⟩
  induction h with
  | here before after =>
    intro p below
    refine ⟨p, ?_, .refl p⟩
    simp only [subtreeOfList_append, subtreeOfList, List.mem_append] at below ⊢
    tauto
  | inMembers before after d e inner ih =>
    exact exists_sameNode before after ⟨rfl, top_perm_of_splice inner, rfl⟩ ih (itself _)
  | @inElement before after d ms e e' inner ih =>
    have own : e'.map Property.id = e.map Property.id := by
      have same := top_perm_of_splice inner
      cases e <;> cases e' <;> simp_all
    exact exists_sameNode before after ⟨rfl, .refl _, own⟩ (itself _) ih

theorem reordered_of_splice {a b : Property} (h : Splice [a, b] [b, a] ps qs) :
    Reordered ps qs := by
  refine ⟨?_, top_perm_of_splice h, exists_sameNode_of_splice h⟩
  obtain ⟨before, after, hps, hqs⟩ := h.ids
  rw [hps, hqs]
  refine .append_right _ (.append_left _ ?_)
  simpa [idsOfList] using List.perm_append_comm

end Property

namespace Tree

open Property hiding id

variable {t t' : Tree} {id : PropertyId} {dir : Direction}

/-- The tree after some moves, of which those that cannot be made are passed over. -/
def moves (t : Tree) (ms : List (PropertyId × Direction)) : Tree :=
  ms.foldl (fun t m => (t.move? m.1 m.2).getD t) t

theorem move?_eq_some_iff (distinct : t.ids.Nodup) : t.move? id dir = some t' ↔
    Shifted id dir t.roots t'.roots ∧ t'.revision = t.revision + 1 := by
  constructor
  · intro h
    obtain ⟨roots, shifted, rfl⟩ := move?_cases h
    exact ⟨shifted, rfl⟩
  · rintro ⟨shifted, revision⟩
    rw [move?, shifted.eq_moved distinct, Shift.moved?, Option.map_some, advance, ← revision]

theorem isSome_move?_iff (distinct : t.ids.Nodup) : (t.move? id dir).isSome ↔
    ∃ ms, Siblings t.roots ms ∧ HasNeighbour id dir ms := by
  rw [Option.isSome_iff_exists]
  constructor
  · rintro ⟨t', moved⟩
    obtain ⟨⟨a, b, up, down, spliced⟩, -⟩ := (move?_eq_some_iff distinct).1 moved
    obtain ⟨ms, siblings, run⟩ := spliced.exists_siblings (Nat.le_refl 2)
    exact ⟨ms, siblings, a, b, up, down, run⟩
  · rintro ⟨-, siblings, a, b, up, down, before, after, rfl⟩
    obtain ⟨roots, spliced⟩ := siblings.exists_splice [b, a]
    exact ⟨t.advance roots, (move?_eq_some_iff distinct).2 ⟨⟨a, b, up, down, spliced⟩, rfl⟩⟩

theorem move?_eq_none_iff (distinct : t.ids.Nodup) : t.move? id dir = none ↔
    id ∉ t.ids ∨ IsElement id t.roots ∨ ∃ ms, Siblings t.roots ms ∧ AtBoundary id dir ms := by
  rw [← Option.not_isSome_iff_eq_none, isSome_move?_iff distinct]
  constructor
  · intro stuck
    by_cases known : id ∈ t.ids
    · rcases (mem_ids_iff id t.roots).1 known with ⟨ms, siblings, mem⟩ | isElement
      · have last := (hasNeighbour_or_atBoundary dir mem).resolve_left
          fun neighbour => stuck ⟨ms, siblings, neighbour⟩
        exact .inr (.inr ⟨ms, siblings, last⟩)
      · exact .inr (.inl isElement)
    · exact .inl known
  · rintro obstacle ⟨ms, siblings, neighbour⟩
    have mem := neighbour.mem
    rcases obstacle with missing | isElement | ⟨ms', siblings', last⟩
    · exact missing ((mem_ids_iff id t.roots).2 (.inl ⟨ms, siblings, mem⟩))
    · exact siblings.not_isElement distinct mem isElement
    · obtain rfl := siblings.unique distinct siblings' mem last.mem
      exact neighbour.not_atBoundary (siblings.nodup distinct) last

theorem reordered_move? (h : t.move? id dir = some t') : Reordered t.roots t'.roots := by
  obtain ⟨roots, ⟨a, b, -, -, spliced⟩, rfl⟩ := move?_cases h
  exact reordered_of_splice spliced

theorem move?_opposite (distinct : t.ids.Nodup) (h : t.move? id dir = some t') :
    ∃ t'', t'.move? id dir.opposite = some t'' ∧ t''.roots = t.roots := by
  obtain ⟨shifted, -⟩ := (move?_eq_some_iff distinct).1 h
  have apart : t'.ids.Nodup := (reordered_move? h).ids.nodup_iff.2 distinct
  exact ⟨t'.advance t.roots, (move?_eq_some_iff apart).2 ⟨shifted.opposite, rfl⟩, rfl⟩

theorem reordered_moves (t : Tree) (ms : List (PropertyId × Direction)) :
    Reordered t.roots (t.moves ms).roots := by
  induction ms generalizing t with
  | nil => exact .refl _
  | cons m ms ih =>
    have step : Reordered t.roots ((t.move? m.1 m.2).getD t).roots := by
      cases moved : t.move? m.1 m.2 with
      | none => exact .refl _
      | some t' => exact reordered_move? moved
    exact step.trans (ih _)

/-- A move exchanges two neighbours, with all that is below them, and nothing else. There is one
exactly if the property is listed among siblings, at the top level or in an object, and has another
one next to it in the direction of the move; so there is none for a missing identifier, for an
element definition and at the boundary, and then all stays as it was. The move back restores the
tree, and however many are made, siblings at most stand in another order. -/
theorem move_exact {t : Tree} (distinct : t.ids.Nodup) (id : PropertyId) (dir : Direction) :
    ((t.move? id dir).isSome ↔ ∃ ms, Siblings t.roots ms ∧ HasNeighbour id dir ms) ∧
      (Legal t.roots → ∀ ms, Siblings t.roots ms → ms ≠ [] → ms = t.roots ∨
        ∃ p ∈ subtreeOfList t.roots, p.kind = .object ∧ ms = p.members) ∧
      (t.move? id dir = none ↔ id ∉ t.ids ∨ IsElement id t.roots ∨
        ∃ ms, Siblings t.roots ms ∧ AtBoundary id dir ms) ∧
      (∀ s, t.move? id dir = none → (Edit.move id dir).perform (t, s) = (t, s)) ∧
      (∀ t', t.move? id dir = some t' ↔
        Shifted id dir t.roots t'.roots ∧ t'.revision = t.revision + 1) ∧
      (∀ t', t.move? id dir = some t' →
        ∃ t'', t'.move? id dir.opposite = some t'' ∧ t''.roots = t.roots) ∧
      ∀ ms, Reordered t.roots (t.moves ms).roots := by
  refine ⟨isSome_move?_iff distinct, fun legal ms siblings => siblings.exists_object legal,
    move?_eq_none_iff distinct, fun s stuck => ?_, fun t' => move?_eq_some_iff distinct,
    fun t' => move?_opposite distinct, reordered_moves t⟩
  rw [Edit.perform, stuck, Option.getD_none]

/-- A list of tags changes places with the city before it and goes back. Its element definition does
not move, and the list does not go further down. -/
theorem move_exact_tags :
    let node (n : Nat) (name : String) (kind : Kind) (ms : List Property)
        (e : Option Property) : Property := ⟨{ id := ⟨.numbered n⟩, name, kind }, ms, e⟩
    let text := node 4 "tags" .string [] none
    let tags := node 3 "tags" .array [] (some text)
    let city := node 2 "city" .string [] none
    let home (ms : List Property) := node 1 "home" .object ms none
    let t : Tree := ⟨[home [city, tags]], 7⟩
    let t' : Tree := ⟨[home [tags, city]], 8⟩
    t.ids.Nodup ∧ t.move? tags.id .up = some t' ∧
      (∃ t'', t'.move? tags.id .down = some t'' ∧ t''.roots = t.roots) ∧
      t.move? text.id .up = none ∧ t.move? tags.id .down = none ∧
      Reordered t.roots (t.moves [(tags.id, .up), (text.id, .up), (city.id, .up)]).roots := by
  intro node text tags city home t t'
  have distinct : t.ids.Nodup := by decide +kernel
  obtain ⟨-, -, -, -, made, back, reordered⟩ := move_exact distinct tags.id .up
  have moved : t.move? tags.id .up = some t' := by
    refine (made t').2 ⟨⟨city, tags, fun _ => rfl, nofun, ?_⟩, rfl⟩
    exact .inMembers [] [] _ none (.here [] [])
  have element : IsElement text.id t.roots :=
    ⟨tags, by simp [t, home, node, subtreeOfList, subtree, tags], text, rfl, rfl⟩
  have last : AtBoundary tags.id .down [city, tags] := ⟨tags, rfl, rfl⟩
  have siblings : Siblings t.roots [city, tags] :=
    .inr ⟨home [city, tags], mem_subtreeOfList_of_mem List.mem_cons_self, rfl⟩
  refine ⟨distinct, moved, back t' moved, ?_, ?_, reordered _⟩
  · exact (move_exact distinct text.id .up).2.2.1.2 (.inr (.inl element))
  · exact (move_exact distinct tags.id .down).2.2.1.2 (.inr (.inr ⟨_, siblings, last⟩))

end Tree
end CredentialSchema

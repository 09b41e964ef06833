import Mathlib.Data.List.Perm.Subperm
import CredentialSchema.Proofs.Property.Subtree
import CredentialSchema.Property.Edit
import CredentialSchema.Property.Lookup

/-!
Edits as splices. Modifying, removing and shifting a property all exchange one run of siblings
for another, at one place of the forest, and leave everything else as it was. `Splice` states
exactly this, an element definition counting as a list of at most one. What an edit does to the
identifiers and to legality follows from what it does to that run.
-/
namespace CredentialSchema.Property

open List

/-- The second forest is the first with one run of siblings exchanged. -/
inductive Splice (old new : List Property) : List Property → List Property → Prop
  | here (before after : List Property) :
    Splice old new (before ++ old ++ after) (before ++ new ++ after)
  | inMembers (before after : List Property) (d : Declaration) (e : Option Property)
    {ms ms' : List Property} : Splice old new ms ms' →
    Splice old new (before ++ ⟨d, ms, e⟩ :: after) (before ++ ⟨d, ms', e⟩ :: after)
  | inElement (before after : List Property) (d : Declaration) (ms : List Property)
    {e e' : Option Property} : Splice old new e.toList e'.toList →
    Splice old new (before ++ ⟨d, ms, e⟩ :: after) (before ++ ⟨d, ms, e'⟩ :: after)

namespace Splice

variable {old new ps qs : List Property}

theorem frame (before after : List Property) (h : Splice old new ps qs) :
    Splice old new (before ++ ps ++ after) (before ++ qs ++ after) := by
  cases h with
  | here before' after' => simpa using here (before ++ before') (after' ++ after)
  | inMembers before' after' d e h =>
    simpa using inMembers (before ++ before') (after' ++ after) d e h
  | inElement before' after' d ms h =>
    simpa using inElement (before ++ before') (after' ++ after) d ms h

theorem cons (p : Property) (h : Splice old new ps qs) : Splice old new (p :: ps) (p :: qs) := by
  simpa using h.frame [p] []

theorem symm (h : Splice old new ps qs) : Splice new old qs ps := by
  induction h with
  | here before after => exact .here before after
  | inMembers before after d e _ ih => exact .inMembers before after d e ih
  | inElement before after d ms _ ih => exact .inElement before after d ms ih

theorem ne_nil (h : Splice old new ps qs) (nonempty : old ≠ []) : ps ≠ [] := by
  cases h <;> simp [nonempty]

theorem stamps (h : Splice old new ps qs) :
    ∃ before after, stamps ps = before ++ stamps old ++ after ∧
      stamps qs = before ++ stamps new ++ after := by
  induction h with
  | here before after =>
    exact ⟨Property.stamps before, Property.stamps after, by simp, by simp⟩
  | inMembers before after d e _ ih =>
    obtain ⟨l, r, hl, hr⟩ := ih
    refine ⟨Property.stamps before ++ (d.id, d.source) :: l,
      r ++ Property.stamps e.toList ++ Property.stamps after, ?_, ?_⟩
    · simp [hl]
    · simp [hr]
  | inElement before after d ms _ ih =>
    obtain ⟨l, r, hl, hr⟩ := ih
    refine ⟨Property.stamps before ++ (d.id, d.source) :: (Property.stamps ms ++ l),
      r ++ Property.stamps after, ?_, ?_⟩
    · simp [hl]
    · simp [hr]

theorem ids (h : Splice old new ps qs) :
    ∃ before after, idsOfList ps = before ++ idsOfList old ++ after ∧
      idsOfList qs = before ++ idsOfList new ++ after := by
  obtain ⟨before, after, hps, hqs⟩ := h.stamps
  refine ⟨before.map Prod.fst, after.map Prod.fst, ?_, ?_⟩
  · rw [← map_fst_stamps, hps, List.map_append, List.map_append, map_fst_stamps]
  · rw [← map_fst_stamps, hqs, List.map_append, List.map_append, map_fst_stamps]

theorem ids_subperm (h : Splice old new ps qs) {drawn : List PropertyId}
    (bound : idsOfList new <+~ drawn ++ idsOfList old) :
    idsOfList qs <+~ drawn ++ idsOfList ps := by
  obtain ⟨before, after, hps, hqs⟩ := h.ids
  have moved : before ++ (drawn ++ idsOfList old) ++ after ~ drawn ++ idsOfList ps := by
    have swapped : before ++ drawn ++ (idsOfList old ++ after) ~
        drawn ++ before ++ (idsOfList old ++ after) := perm_append_comm.append_right _
    simpa [hps] using swapped
  rw [hqs]
  exact (((subperm_append_left before).2 bound).append (Subperm.refl after)).trans moved.subperm

theorem legal (h : Splice old new ps qs) (nonempty : old ≠ [])
    (replaced : Legal old → Legal new) (hps : Legal ps) : Legal qs := by
  induction h with
  | here before after =>
    simp only [legal_append] at hps ⊢
    exact ⟨⟨hps.1.1, replaced hps.1.2⟩, hps.2⟩
  | inMembers before after d e inner ih =>
    rw [legal_append, legal_cons] at hps ⊢
    obtain ⟨hbefore, ⟨hmembers, helement⟩, hms, he, hafter⟩ := hps
    have isObject : d.kind = .object := hmembers (inner.ne_nil nonempty)
    exact ⟨hbefore, ⟨fun _ => isObject, helement⟩, ih hms, he, hafter⟩
  | @inElement before after d ms e e' inner ih =>
    rw [legal_append, legal_cons] at hps ⊢
    obtain ⟨hbefore, ⟨hmembers, helement⟩, hms, he, hafter⟩ := hps
    have isArray : d.kind = .array := helement (by
      rintro rfl
      exact inner.ne_nil nonempty rfl)
    exact ⟨hbefore, ⟨hmembers, fun _ => isArray⟩, hms, ih he, hafter⟩

end Splice

mutual
theorem modify?_eq_none_iff (id : PropertyId) (f : Property → Property) :
    ∀ p : Property, modify? id f p = none ↔ find? id p = none
  | ⟨d, ms, e⟩ => by
    have inMembers := modifyInList?_eq_none_iff id f ms
    have inElement := modifyInOption?_eq_none_iff id f e
    rw [modify?, find?]
    by_cases h : d.id = id
    · simp [h]
    · rw [if_neg h, if_neg h]
      cases hm : modifyInList? id f ms <;> simp_all

theorem modifyInList?_eq_none_iff (id : PropertyId) (f : Property → Property) :
    ∀ ps : List Property, modifyInList? id f ps = none ↔ findInList? id ps = none
  | [] => by simp [modifyInList?, findInList?]
  | p :: ps => by
    have first := modify?_eq_none_iff id f p
    have rest := modifyInList?_eq_none_iff id f ps
    rw [modifyInList?, findInList?]
    cases hp : modify? id f p <;> simp_all

theorem modifyInOption?_eq_none_iff (id : PropertyId) (f : Property → Property) :
    ∀ e : Option Property, modifyInOption? id f e = none ↔ findInOption? id e = none
  | none => by simp [modifyInOption?, findInOption?]
  | some p => by simp [modifyInOption?, findInOption?, modify?_eq_none_iff id f p]
end

mutual
theorem modify?_splice {id : PropertyId} {f : Property → Property} :
    ∀ {p q : Property}, modify? id f p = some q →
      ∃ r, find? id p = some r ∧ Splice [r] [f r] [p] [q]
  | ⟨d, ms, e⟩, q, h => by
    rw [modify?] at h
    rw [find?]
    by_cases here : d.id = id
    · simp only [if_pos here, Option.some.injEq] at h ⊢
      exact ⟨_, rfl, h ▸ .here [] []⟩
    · rw [if_neg here] at h ⊢
      cases hm : modifyInList? id f ms with
      | some ms' =>
        obtain ⟨r, found, inner⟩ := modifyInList?_splice hm
        simp only [hm, Option.some.injEq] at h
        exact ⟨r, by simp [found], h ▸ .inMembers [] [] d e inner⟩
      | none =>
        simp only [hm, Option.map_eq_some_iff] at h
        obtain ⟨e', he, rfl⟩ := h
        obtain ⟨r, found, inner⟩ := modifyInOption?_splice he
        have absent := (modifyInList?_eq_none_iff id f ms).1 hm
        exact ⟨r, by simp [absent, found], .inElement [] [] d ms inner⟩

theorem modifyInList?_splice {id : PropertyId} {f : Property → Property} :
    ∀ {ps qs : List Property}, modifyInList? id f ps = some qs →
      ∃ r, findInList? id ps = some r ∧ Splice [r] [f r] ps qs
  | p :: ps, qs, h => by
    rw [modifyInList?] at h
    rw [findInList?]
    cases hp : modify? id f p with
    | some p' =>
      obtain ⟨r, found, inner⟩ := modify?_splice hp
      simp only [hp, Option.some.injEq] at h
      exact ⟨r, by simp [found], h ▸ inner.frame [] ps⟩
    | none =>
      simp only [hp, Option.map_eq_some_iff] at h
      obtain ⟨ps', hps, rfl⟩ := h
      obtain ⟨r, found, inner⟩ := modifyInList?_splice hps
      have absent := (modify?_eq_none_iff id f p).1 hp
      exact ⟨r, by simp [absent, found], inner.cons p⟩

theorem modifyInOption?_splice {id : PropertyId} {f : Property → Property} :
    ∀ {e e' : Option Property}, modifyInOption? id f e = some e' →
      ∃ r, findInOption? id e = some r ∧ Splice [r] [f r] e.toList e'.toList
  | some p, e', h => by
    simp only [modifyInOption?, Option.map_eq_some_iff] at h
    obtain ⟨p', hp, rfl⟩ := h
    exact modify?_splice hp
end

mutual
theorem removeBelow?_splice {id : PropertyId} :
    ∀ {p gone q : Property}, removeBelow? id p = some (gone, q) →
      gone.id = id ∧ Splice [gone] [] [p] [q]
  | ⟨d, ms, e⟩, gone, q, h => by
    rw [removeBelow?] at h
    cases hm : removeInList? id ms with
    | some r =>
      obtain ⟨gone', ms'⟩ := r
      obtain ⟨found, inner⟩ := removeInList?_splice hm
      simp only [hm, Option.some.injEq, Prod.mk.injEq] at h
      obtain ⟨rfl, rfl⟩ := h
      exact ⟨found, .inMembers [] [] d e inner⟩
    | none =>
      simp only [hm, Option.map_eq_some_iff, Prod.mk.injEq, Prod.exists] at h
      obtain ⟨gone', e', he, rfl, rfl⟩ := h
      obtain ⟨found, inner⟩ := removeInOption?_splice he
      exact ⟨found, .inElement [] [] d ms inner⟩

theorem removeInList?_splice {id : PropertyId} :
    ∀ {ps : List Property} {gone : Property} {qs : List Property},
      removeInList? id ps = some (gone, qs) → gone.id = id ∧ Splice [gone] [] ps qs
  | p :: ps, gone, qs, h => by
    rw [removeInList?] at h
    by_cases here : p.id = id
    · simp only [if_pos here, Option.some.injEq, Prod.mk.injEq] at h
      obtain ⟨rfl, rfl⟩ := h
      exact ⟨here, .here [] ps⟩
    · rw [if_neg here] at h
      cases hp : removeBelow? id p with
      | some r =>
        obtain ⟨gone', p'⟩ := r
        obtain ⟨found, inner⟩ := removeBelow?_splice hp
        simp only [hp, Option.some.injEq, Prod.mk.injEq] at h
        obtain ⟨rfl, rfl⟩ := h
        exact ⟨found, inner.frame [] ps⟩
      | none =>
        simp only [hp, Option.map_eq_some_iff, Prod.mk.injEq, Prod.exists] at h
        obtain ⟨gone', ps', hps, rfl, rfl⟩ := h
        obtain ⟨found, inner⟩ := removeInList?_splice hps
        exact ⟨found, inner.cons p⟩

theorem removeInOption?_splice {id : PropertyId} :
    ∀ {e : Option Property} {gone : Property} {e' : Option Property},
      removeInOption? id e = some (gone, e') →
        gone.id = id ∧ Splice [gone] [] e.toList e'.toList
  | some p, gone, e', h => by
    rw [removeInOption?] at h
    by_cases here : p.id = id
    · simp only [if_pos here, Option.some.injEq, Prod.mk.injEq] at h
      obtain ⟨rfl, rfl⟩ := h
      exact ⟨here, .here [] []⟩
    · simp only [if_neg here, Option.map_eq_some_iff, Prod.mk.injEq, Prod.exists] at h
      obtain ⟨gone', p', hp, rfl, rfl⟩ := h
      exact removeBelow?_splice hp
end

/-- Two neighbours exchanged somewhere in a forest, the one that moved up or down being the
property with this identifier. -/
def Shifted (id : PropertyId) (dir : Direction) (ps qs : List Property) : Prop :=
  ∃ a b, (dir = .up → b.id = id) ∧ (dir = .down → a.id = id) ∧ Splice [a, b] [b, a] ps qs

theorem shiftFirst_splice {id : PropertyId} {dir : Direction} {p : Property}
    {ps qs : List Property} (here : p.id = id) (h : shiftFirst dir p ps = .moved qs) :
    Shifted id dir (p :: ps) qs := by
  cases ps with
  | nil => cases h
  | cons q ps =>
    cases dir with
    | up => cases h
    | down =>
      obtain rfl := Shift.moved.inj h
      exact ⟨p, q, nofun, fun _ => here, .here [] ps⟩

theorem raiseOver?_splice {id : PropertyId} {dir : Direction} {p : Property}
    {ps qs : List Property} (h : raiseOver? id dir p ps = some qs) :
    Shifted id dir (p :: ps) qs := by
  cases ps with
  | nil => cases h
  | cons q ps =>
    simp only [raiseOver?, Option.ite_none_right_eq_some, Option.some.injEq] at h
    obtain ⟨⟨rfl, here⟩, rfl⟩ := h
    exact ⟨p, q, fun _ => here, nofun, .here [] ps⟩

mutual
theorem shiftBelow_splice {id : PropertyId} {dir : Direction} :
    ∀ {p q : Property}, shiftBelow id dir p = .moved q → Shifted id dir [p] [q]
  | ⟨d, ms, e⟩, q, h => by
    rw [shiftBelow] at h
    cases hm : shiftInList id dir ms with
    | absent =>
      simp only [hm, Shift.map_eq_moved_iff] at h
      obtain ⟨e', he, rfl⟩ := h
      obtain ⟨a, b, up, down, inner⟩ := shiftInOption_splice he
      exact ⟨a, b, up, down, .inElement [] [] d ms inner⟩
    | stuck => simp [hm, Shift.map] at h
    | moved ms' =>
      simp only [hm, Shift.map, Shift.moved.injEq] at h
      obtain ⟨a, b, up, down, inner⟩ := shiftInList_splice hm
      exact ⟨a, b, up, down, h ▸ .inMembers [] [] d e inner⟩

theorem shiftInList_splice {id : PropertyId} {dir : Direction} :
    ∀ {ps qs : List Property}, shiftInList id dir ps = .moved qs → Shifted id dir ps qs
  | p :: ps, qs, h => by
    rw [shiftInList] at h
    by_cases here : p.id = id
    · rw [if_pos here] at h
      exact shiftFirst_splice here h
    · rw [if_neg here] at h
      cases hp : shiftBelow id dir p with
      | absent =>
        simp only [hp] at h
        cases hr : raiseOver? id dir p ps with
        | some raised =>
          simp only [hr, Shift.moved.injEq] at h
          exact h ▸ raiseOver?_splice hr
        | none =>
          simp only [hr, Shift.map_eq_moved_iff] at h
          obtain ⟨ps', hps, rfl⟩ := h
          obtain ⟨a, b, up, down, inner⟩ := shiftInList_splice hps
          exact ⟨a, b, up, down, inner.cons p⟩
      | stuck => simp [hp, Shift.map] at h
      | moved p' =>
        simp only [hp, Shift.map, Shift.moved.injEq] at h
        obtain ⟨a, b, up, down, inner⟩ := shiftBelow_splice hp
        exact ⟨a, b, up, down, h ▸ inner.frame [] ps⟩

theorem shiftInOption_splice {id : PropertyId} {dir : Direction} :
    ∀ {e e' : Option Property}, shiftInOption id dir e = .moved e' →
      Shifted id dir e.toList e'.toList
  | some p, e', h => by
    rw [shiftInOption] at h
    split at h
    · cases h
    · obtain ⟨p', hp, rfl⟩ := Shift.map_eq_moved_iff.1 h
      exact shiftBelow_splice hp
end

end CredentialSchema.Property

import CredentialSchema.Proofs.Draws
import CredentialSchema.Proofs.Property.Patch
import CredentialSchema.Proofs.Property.Splice
import CredentialSchema.Proofs.Tree.Operation

/-!
What an operation may do to a tree. `Sound` relates a tree and a source of identifiers to what
an operation leaves of both: every identifier afterwards was there before or was drawn, none is
more frequent than that allows, and legality is kept. It holds of every single operation without
any assumption on the tree, and it composes.
-/
namespace CredentialSchema.Tree

open List Property

/-- The second state has the identifiers of the first and the drawn ones at most, and is legal
if the first is. -/
structure Sound (x y : Tree × IdSource) : Prop where
  source : ∃ n, y.2 = x.2.advance n
  ids : y.1.ids <+~ x.2.drawnUntil y.2 ++ x.1.ids
  legal : Legal x.1.roots → Legal y.1.roots

namespace Sound

variable {x y z : Tree × IdSource}

theorem refl (x : Tree × IdSource) : Sound x x :=
  ⟨⟨0, rfl⟩, by simpa using Subperm.refl _, id⟩

theorem drawnUntil_trans (h : Sound x y) (h' : Sound y z) :
    x.2.drawnUntil z.2 = x.2.drawnUntil y.2 ++ y.2.drawnUntil z.2 := by
  obtain ⟨m, hm⟩ := h.source
  obtain ⟨n, hn⟩ := h'.source
  rw [hn, hm, IdSource.advance_advance, IdSource.drawnUntil_append]

theorem trans (h : Sound x y) (h' : Sound y z) : Sound x z := by
  have split := h.drawnUntil_trans h'
  obtain ⟨⟨m, hm⟩, hids, hlegal⟩ := h
  obtain ⟨⟨n, hn⟩, hids', hlegal'⟩ := h'
  have hz : z.2 = x.2.advance (m + n) := by rw [hn, hm, IdSource.advance_advance]
  refine ⟨⟨m + n, hz⟩, ?_, hlegal' ∘ hlegal⟩
  have both : z.1.ids <+~ y.2.drawnUntil z.2 ++ (x.2.drawnUntil y.2 ++ x.1.ids) :=
    hids'.trans ((subperm_append_left _).2 hids)
  have swapped : y.2.drawnUntil z.2 ++ (x.2.drawnUntil y.2 ++ x.1.ids) ~
      x.2.drawnUntil z.2 ++ x.1.ids := by
    rw [split, ← append_assoc]
    exact perm_append_comm.append_right _
  exact both.trans swapped.subperm

theorem getD {r : Option Tree} {t : Tree} {s : IdSource}
    (each : ∀ t', r = some t' → Sound (t, s) (t', s)) : Sound (t, s) (r.getD t, s) := by
  cases r with
  | none => exact .refl _
  | some t' => exact each t' rfl

theorem nodup (h : Sound x y) (fresh : x.2.Fresh y.2 x.1.ids) (distinct : x.1.ids.Nodup) :
    y.1.ids.Nodup := by
  obtain ⟨l, perm, sub⟩ := h.ids
  exact perm.nodup_iff.1 ((fresh.nodup_append distinct).sublist sub)

theorem fresh_split (h : Sound x y) (h' : Sound y z) (fresh : x.2.Fresh z.2 x.1.ids) :
    x.2.Fresh y.2 x.1.ids ∧ y.2.Fresh z.2 y.1.ids := by
  obtain ⟨m, hm⟩ := h.source
  obtain ⟨n, hn⟩ := h'.source
  have hz : z.2 = x.2.advance (m + n) := by rw [hn, hm, IdSource.advance_advance]
  rw [hz] at fresh ⊢
  obtain ⟨first, second⟩ := fresh.split
  rw [← hm] at first second
  exact ⟨first, second.mono h.ids.subset⟩

end Sound

variable {t t' : Tree} {s : IdSource}

theorem modify?_splice {id : PropertyId} {f : Property → Property}
    (h : t.modify? id f = some t') :
    ∃ p, t.find? id = some p ∧ Splice [p] [f p] t.roots t'.roots := by
  rw [modify?, Option.map_eq_some_iff] at h
  obtain ⟨roots, hroots, rfl⟩ := h
  exact modifyInList?_splice hroots

theorem sound_of_splice {old new : List Property} {n : Nat}
    (h : Splice old new t.roots t'.roots) (nonempty : old ≠ [])
    (ids : idsOfList new <+~ s.drawnUntil (s.advance n) ++ idsOfList old)
    (legal : Legal old → Legal new) : Sound (t, s) (t', s.advance n) :=
  ⟨⟨n, rfl⟩, h.ids_subperm ids, h.legal nonempty legal⟩

theorem update?_sound {id : PropertyId} {u : Patch} (h : t.update? id u = some t') :
    Sound (t, s) (t', s) := by
  obtain ⟨p, -, spliced⟩ := modify?_splice h
  refine sound_of_splice (n := 0) spliced (by simp) ?_ (legal_patch u)
  simpa [idsOfList] using (ids_patch_sublist u p).subperm

theorem setSource?_sound {id : PropertyId} {source : String}
    (h : t.setSource? id source = some t') :
    Sound (t, s) (t', s) := by
  obtain ⟨⟨d, ms, e⟩, -, spliced⟩ := modify?_splice h
  refine sound_of_splice (n := 0) spliced (by simp) ?_ ?_
  · simpa [idsOfList, Property.ids] using Subperm.refl _
  · intro hp
    rw [legal_cons] at hp ⊢
    exact hp

theorem delete?_sound {id : PropertyId} {gone : Property} (h : t.delete? id = some (gone, t')) :
    Sound (t, s) (t', s) := by
  rw [delete?, Option.map_eq_some_iff] at h
  obtain ⟨⟨gone', roots⟩, hroots, eq⟩ := h
  obtain ⟨rfl, rfl⟩ := Prod.mk.inj eq
  obtain ⟨-, spliced⟩ := removeInList?_splice hroots
  exact sound_of_splice (n := 0) spliced (by simp) (by simp [idsOfList]) fun _ => legal_nil

theorem move?_cases {id : PropertyId} {dir : Direction} (h : t.move? id dir = some t') :
    ∃ roots, Shifted id dir t.roots roots ∧ t' = t.advance roots := by
  obtain ⟨roots, shifted, rfl⟩ := Option.map_eq_some_iff.1 h
  exact ⟨roots, shiftInList_splice (Shift.moved?_eq_some_iff.1 shifted), rfl⟩

theorem move?_sound {id : PropertyId} {dir : Direction} (h : t.move? id dir = some t') :
    Sound (t, s) (t', s) := by
  obtain ⟨roots, ⟨a, b, -, -, spliced⟩, rfl⟩ := move?_cases h
  refine sound_of_splice (n := 0) spliced (by simp) ?_ ?_
  · have swapped : b.ids ++ a.ids ~ a.ids ++ b.ids := perm_append_comm
    simpa [idsOfList] using swapped.subperm
  · intro h
    rw [← singleton_append, legal_append] at h ⊢
    exact h.symm

theorem legal_fresh (id : PropertyId) (kind : Kind) (name : String) :
    Legal [Property.fresh id kind name] := by
  rw [Property.fresh, legal_cons]
  simp

theorem add_sound {parent : Option PropertyId} {id : PropertyId}
    (h : t.add (s.ahead 0) parent = .ok (some (id, t'))) : Sound (t, s) (t', s.advance 1) := by
  have legalNew := legal_fresh (s.ahead 0) .string ""
  rcases add_cases h with ⟨-, rfl⟩ | ⟨holder, p, -, found, isObject, modified⟩
  · refine ⟨⟨1, rfl⟩, ?_, fun legal => (legal_append _ _).2 ⟨legal, legalNew⟩⟩
    have perm := perm_append_singleton (s.ahead 0) (idsOfList t.roots)
    simpa [advance, Tree.ids, idsOfList, Property.fresh, Property.ids] using perm.subperm
  · obtain ⟨r, hr, spliced⟩ := modify?_splice modified
    obtain rfl : p = r := Option.some.inj (found ▸ hr)
    obtain ⟨d, ms, e⟩ := p
    refine sound_of_splice spliced (by simp) ?_ ?_
    · have moved : d.id :: (idsOfList ms ++ s.ahead 0 :: idsOfList e.toList) ~
          s.ahead 0 :: d.id :: (idsOfList ms ++ idsOfList e.toList) :=
        @perm_middle _ _ (d.id :: idsOfList ms) _
      simpa [idsOfList, Property.fresh, Property.ids] using moved.subperm
    · intro legal
      rw [legal_cons] at legal ⊢
      obtain ⟨⟨-, helement⟩, hms, he, hnil⟩ := legal
      exact ⟨⟨fun _ => isObject, helement⟩, (legal_append _ _).2 ⟨hms, legalNew⟩, he, hnil⟩

theorem setElement_sound {id elementId : PropertyId} {kind : Kind}
    (h : t.setElement (s.ahead 0) id kind = .ok (some (elementId, t'))) :
    Sound (t, s) (t', s.advance 1) := by
  obtain ⟨p, found, isArray, modified⟩ := setElement_cases h
  obtain ⟨r, hr, spliced⟩ := modify?_splice modified
  obtain rfl : p = r := Option.some.inj (found ▸ hr)
  obtain ⟨d, ms, e⟩ := p
  refine sound_of_splice spliced (by simp) ?_ ?_
  · have moved : d.id :: (idsOfList ms ++ [s.ahead 0]) ~ s.ahead 0 :: (d.id :: idsOfList ms) :=
      perm_append_singleton (s.ahead 0) (d.id :: idsOfList ms)
    have kept : d.id :: idsOfList ms <+ d.id :: (idsOfList ms ++ idsOfList e.toList) :=
      (sublist_append_left _ _).cons_cons d.id
    simpa [idsOfList, Property.fresh, Property.ids] using
      moved.subperm.trans (kept.cons_cons (s.ahead 0)).subperm
  · intro legal
    have legalNew := legal_fresh (s.ahead 0) kind d.name
    rw [legal_cons] at legal ⊢
    obtain ⟨⟨hmembers, -⟩, hms, -, hnil⟩ := legal
    exact ⟨⟨hmembers, fun _ => isArray⟩, hms, legalNew, hnil⟩

end CredentialSchema.Tree

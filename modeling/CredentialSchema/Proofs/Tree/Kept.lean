import CredentialSchema.Proofs.Tree.Change

/-!
Which identifiers stay in a tree. Whatever adds to it keeps them all, a move keeps them, and a
deletion drops exactly those of what it returns. As long as the drawn ones are new they stay
pairwise distinct.
-/
namespace CredentialSchema

def IdSource.only (id : PropertyId) : IdSource := ⟨fun _ => id.uuid, 0⟩

theorem IdSource.fresh_only {id : PropertyId} {taken : List PropertyId} (new : id ∉ taken) :
    (only id).Fresh ((only id).advance 1) taken := by
  have drawn : (only id).drawnUntil ((only id).advance 1) = [id] := drawnUntil_one _
  refine ⟨?_, ?_⟩ <;> rw [drawn]
  · exact List.nodup_singleton id
  · simpa using new

theorem IdSource.fresh_self (s : IdSource) (taken : List PropertyId) : s.Fresh s taken :=
  ⟨by simp, by simp⟩

theorem Property.Splice.ids_subset {old new ps qs : List Property} (h : Splice old new ps qs)
    (kept : idsOfList old ⊆ idsOfList new) : idsOfList ps ⊆ idsOfList qs := by
  obtain ⟨before, after, hps, hqs⟩ := h.ids
  rw [hps, hqs]
  exact List.append_subset.2 ⟨List.append_subset.2 ⟨by simp, fun id mem => by simp [kept mem]⟩,
    by simp⟩

namespace Tree

open Property hiding id

variable {t t' : Tree} {s s' : IdSource} {target : Option PropertyId} {cs : List Candidate}
  {report report' : ImportReport}

theorem contains_iff {id : PropertyId} : t.contains id = true ↔ id ∈ t.ids := by
  rw [contains, Option.isSome_iff_ne_none, Ne, find?, findInList?_eq_none_iff, not_not]
  rfl

theorem ids_subset_place? {q : Property} (h : t.place? target q = some t') : t.ids ⊆ t'.ids := by
  rcases place?_splice h with ⟨-, spliced⟩ | ⟨id, ⟨d, ms, e⟩, -, -, spliced⟩
  · exact spliced.ids_subset (by simp [idsOfList])
  · refine spliced.ids_subset fun id mem => ?_
    simp only [withMember, idsOfList, Property.ids, idsOfList_append, List.mem_append,
      List.mem_cons] at mem ⊢
    tauto

theorem Imports.ids_subset {drawn : List PropertyId}
    (h : Imports target drawn cs t report t' report') : t.ids ⊆ t'.ids := by
  induction h with
  | done t report => exact List.Subset.refl _
  | skip _ _ ih => exact ih
  | take _ _ place same _ ih =>
    have placed := ids_subset_place? place
    rw [Tree.ids, Tree.ids, ← same] at placed
    exact List.Subset.trans placed ih

theorem ids_subset_add {fresh id : PropertyId} {parent : Option PropertyId}
    (h : t.add fresh parent = .ok (some (id, t'))) : t.ids ⊆ t'.ids :=
  ids_subset_place? (place?_of_add h)

theorem ids_subset_move? {id : PropertyId} {dir : Direction} (h : t.move? id dir = some t') :
    t.ids ⊆ t'.ids := by
  obtain ⟨roots, ⟨a, b, -, -, spliced⟩, rfl⟩ := move?_cases h
  refine spliced.ids_subset fun id mem => ?_
  simp only [idsOfList, List.mem_append] at mem ⊢
  tauto

theorem mem_ids_delete? {id : PropertyId} {gone : Property} (distinct : t.ids.Nodup)
    (h : t.delete? id = some (gone, t')) :
    ∀ id ∈ t.ids, id ∈ gone.ids ↔ id ∉ t'.ids := by
  obtain ⟨⟨gone', roots⟩, removed, eq⟩ := Option.map_eq_some_iff.1 h
  obtain ⟨rfl, rfl⟩ := Prod.mk.inj eq
  obtain ⟨before, after, ids, ids'⟩ := (removeInList?_splice removed).2.ids
  intro id mem
  rw [Tree.ids, ids] at distinct mem
  change _ ↔ id ∉ idsOfList roots
  rw [ids']
  simp only [idsOfList, List.append_nil, List.nodup_append, List.mem_append] at distinct mem ⊢
  grind

theorem nodup_add {fresh id : PropertyId} {parent : Option PropertyId} (distinct : t.ids.Nodup)
    (new : fresh ∉ t.ids) (h : t.add fresh parent = .ok (some (id, t'))) : t'.ids.Nodup :=
  (@add_sound t t' (.only fresh) parent id h).nodup (IdSource.fresh_only new) distinct

theorem nodup_setElement {fresh id elementId : PropertyId} {kind : Kind} (distinct : t.ids.Nodup)
    (new : fresh ∉ t.ids) (h : t.setElement fresh id kind = .ok (some (elementId, t'))) :
    t'.ids.Nodup :=
  (@setElement_sound t t' (.only fresh) id elementId kind h).nodup (IdSource.fresh_only new)
    distinct

theorem nodup_of_sound (h : ∀ s, Sound (t, s) (t', s)) (distinct : t.ids.Nodup) : t'.ids.Nodup :=
  (h ⟨Uuid.numbered, 0⟩).nodup (IdSource.fresh_self _ _) distinct

theorem ids_import? (h : t.import? target cs s = .ok (some (t', s', report)))
    (fresh : s.Fresh (s.advance (cs.map Candidate.draws).sum) t.ids) :
    t.ids ⊆ t'.ids ∧ (t.ids.Nodup → t'.ids.Nodup) := by
  have container := accepts_of_import? h
  obtain ⟨t₁, s₁, report₁, through, drawn⟩ := importEach_goes_through container {} fresh
  cases (importEach_of_import? h).symm.trans through
  exact ⟨(imports_of_import? h drawn).ids_subset, (import?_sound h).nodup drawn⟩

end Tree
end CredentialSchema

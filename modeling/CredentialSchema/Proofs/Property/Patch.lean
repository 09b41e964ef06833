import Mathlib.Data.List.Basic
import CredentialSchema.Proofs.Property.Subtree
import CredentialSchema.Property.Patch

/-!
What a patch does to the stamps and to legality. Renaming leaves both alone, and a change of
kind drops exactly the part that the new kind may not hold, so a patched property has no
identifier and no catalogue entry that it did not have and is legal if it was.
-/
namespace CredentialSchema.Property

mutual
theorem stamps_renameChain (name : String) : ∀ p : Property,
    stamps [renameChain name p] = stamps [p]
  | ⟨d, ms, e⟩ => by
    rw [renameChain, stamps_cons, stamps_cons, stamps_renameElement name e]

theorem stamps_renameElement (name : String) : ∀ e : Option Property,
    stamps (renameElement name e).toList = stamps e.toList
  | none => rfl
  | some p => stamps_renameChain name p
end

mutual
theorem legal_renameChain (name : String) : ∀ p : Property, Legal [p] → Legal [renameChain name p]
  | ⟨d, ms, e⟩, h => by
    rw [legal_cons] at h
    obtain ⟨⟨hmembers, helement⟩, hms, he, hnil⟩ := h
    rw [renameChain, legal_cons]
    refine ⟨⟨hmembers, fun present => helement ?_⟩, hms, legal_renameElement name e he, hnil⟩
    rintro rfl
    exact present rfl

theorem legal_renameElement (name : String) : ∀ e : Option Property,
    Legal e.toList → Legal (renameElement name e).toList
  | none, h => h
  | some p, h => legal_renameChain name p h
end

theorem stamps_changeKind_sublist (kind : Kind) (p : Property) :
    (stamps [changeKind kind p]).Sublist (stamps [p]) := by
  obtain ⟨d, ms, e⟩ := p
  rw [changeKind]
  by_cases same : kind = d.kind
  · rw [if_pos same]
  · rw [if_neg same, stamps_cons, stamps_cons]
    refine ((List.Sublist.append ?_ ?_).cons_cons (d.id, d.source)).append (List.Sublist.refl _)
    · split
      · exact List.Sublist.refl _
      · exact List.nil_sublist _
    · split
      · exact List.Sublist.refl _
      · exact List.nil_sublist _

theorem legal_changeKind (kind : Kind) {p : Property} (h : Legal [p]) :
    Legal [changeKind kind p] := by
  obtain ⟨d, ms, e⟩ := p
  rw [changeKind]
  by_cases same : kind = d.kind
  · rwa [if_pos same]
  · rw [legal_cons] at h
    rw [if_neg same, legal_cons]
    obtain ⟨-, hms, he, hnil⟩ := h
    refine ⟨⟨?_, ?_⟩, ?_, ?_, hnil⟩
    · intro present
      by_contra other
      simp [other] at present
    · intro present
      by_contra other
      simp [other] at present
    · split
      · exact hms
      · exact legal_nil
    · split
      · exact he
      · exact legal_nil

/-- A patch is a renaming, new values for the other fields of the declaration, and a change of
kind, each of which may be left out. -/
theorem patch_induct {motive : Property → Prop} (u : Patch) {p : Property} (start : motive p)
    (rename : ∀ name q, motive q → motive (renameChain name q))
    (redeclare : ∀ (d : Declaration) (q : Property), d.id = q.id → d.name = q.name →
      d.kind = q.kind → d.source = q.decl.source → motive q → motive { q with decl := d })
    (retype : ∀ kind q, motive q → motive (changeKind kind q)) : motive (patch u p) := by
  obtain ⟨name, displayName, description, kind, required, constraints⟩ := u
  have renamed : motive (name.elim p fun name => renameChain name p) := by
    cases name with
    | none => exact start
    | some name => exact rename name p start
  rw [patch]
  cases name <;> cases kind with
  | none => exact redeclare _ _ rfl rfl rfl rfl renamed
  | some kind => exact retype kind _ (redeclare _ _ rfl rfl rfl rfl renamed)

theorem stamps_patch_sublist (u : Patch) (p : Property) :
    (stamps [patch u p]).Sublist (stamps [p]) := by
  refine patch_induct (motive := fun q => (stamps [q]).Sublist (stamps [p])) u
    (List.Sublist.refl _) ?_ ?_ ?_
  · intro name q h
    rwa [stamps_renameChain]
  · intro d q sameId _ _ sameSource h
    obtain ⟨d', ms, e⟩ := q
    rw [stamps_cons] at h ⊢
    rwa [sameId, sameSource]
  · intro kind q h
    exact (stamps_changeKind_sublist kind q).trans h

theorem ids_patch_sublist (u : Patch) (p : Property) : (patch u p).ids.Sublist p.ids := by
  have mapped := (stamps_patch_sublist u p).map Prod.fst
  simpa [map_fst_stamps, idsOfList] using mapped

theorem legal_patch (u : Patch) {p : Property} (h : Legal [p]) : Legal [patch u p] := by
  refine patch_induct (motive := fun q => Legal [q]) u h ?_ ?_ ?_
  · exact fun name q => legal_renameChain name q
  · intro d q _ _ sameKind _ hq
    obtain ⟨d', ms, e⟩ := q
    rw [legal_cons] at hq ⊢
    rwa [sameKind]
  · exact fun kind q hq => legal_changeKind kind hq

end CredentialSchema.Property

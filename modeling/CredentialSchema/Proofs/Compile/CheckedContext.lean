import CredentialSchema.Compile.Artifact
import CredentialSchema.Proofs.Compile.Terms

/-!
Checked context documents. The table of terms that the context pass makes always passes the check:
a term's IRI is a catalogue id that is not blank, a catalogue id behind a namespace, or a text with
a number sign, and none of these is empty. So whether a project gives a publishable context is
decided by its context URL and by nothing in its tree.
-/
namespace CredentialSchema

open Json (Value)

namespace ContextCheck

/-- A key that is no term, or a term with an IRI. -/
def IsEntry (m : String × Value) : Prop :=
  m.1.toList.head? = some '@' ∨ ∃ iri, iri ≠ "" ∧ m.2 = .string iri

theorem checkTerms_eq_ok_iff (terms : List (String × Value)) :
    checkTerms terms = .ok () ↔ ∀ m ∈ terms, IsEntry m := by
  induction terms with
  | nil => simp [checkTerms]
  | cons m terms ih =>
    obtain ⟨term, value⟩ := m
    rw [checkTerms.eq_def, List.forall_mem_cons, ← ih]
    dsimp only
    split
    · next reserved => simp [IsEntry, reserved]
    · next free =>
      cases value with
      | string iri =>
        by_cases empty : iri = ""
        · simp [IsEntry, free, empty]
        · simp [IsEntry, free, empty]
      | _ => simp [IsEntry, free]

end ContextCheck

namespace ContextPass

open ContextCheck

theorem termIri_ne_empty (url vocabulary : String) (d : Declaration) :
    termIri url vocabulary d ≠ "" := by
  rw [termIri]
  cases source : Text.present d.source with
  | none => simp
  | some s =>
    have notEmpty : s ≠ "" := by
      rintro rfl
      exact absurd (Option.filter_eq_some_iff.1 source).2 (by decide)
    dsimp only
    split <;> simp [notEmpty]

variable (url vocabulary : String)

theorem isEntry_foldl_claim {terms : Terms} (h : ∀ m ∈ terms, IsEntry m)
    (ds : List Declaration) : ∀ m ∈ ds.foldl (claim url vocabulary) terms, IsEntry m := by
  induction ds generalizing terms with
  | nil => exact h
  | cons d ds ih =>
    refine ih ?_
    rw [claim]
    split
    · exact h
    · rw [List.forall_mem_append, List.forall_mem_singleton]
      exact ⟨h, .inr ⟨_, termIri_ne_empty url vocabulary d, rfl⟩⟩

theorem isEntry_header : ∀ m ∈ header, IsEntry m := by
  rw [header, List.forall_mem_cons, List.forall_mem_singleton]
  exact ⟨.inl (by decide), .inl (by decide)⟩

theorem check_compile (t : Tree) (m : Metadata) (n : Namespaces) :
    check (compile t m n).document =
      if Text.hasAuthorityMark (ContextPass.url m n) then .ok ()
      else .error ⟨"@id", "not an absolute URL"⟩ := by
  let terms := (visitMembers (ContextPass.url m n) n.vocabulary "" header t.roots).1
  have entries : ∀ m ∈ terms, IsEntry m := by
    rw [show terms = _ from fst_visitMembers _ _ t.roots "" header]
    exact isEntry_foldl_claim _ _ isEntry_header _
  have document : (compile t m n).document =
    .object [("@context", .object terms), ("@id", .string (ContextPass.url m n))] := rfl
  rw [document, ← (checkTerms_eq_ok_iff terms).2 entries]
  rfl

end ContextPass

/-- A project gives a publishable context exactly if its context URL is absolute, whatever its tree
holds; the artifact is then the same as without the check, and else it is the URL that is at
fault. -/
theorem Project.compileChecked_context (p : Project) (isPattern : String → Bool)
    (n : Namespaces) :
    let url := ContextUrl.derive n.context p.metadata.title p.metadata.category
      p.metadata.credentialName
    (p.compileChecked isPattern .context n = .ok (p.compileAs .context n) ↔
        "://".toList <:+: url.toList) ∧
      (p.compileChecked isPattern .context n =
          .error (.malformedContext ⟨"@id", "not an absolute URL"⟩) ↔
        ¬ "://".toList <:+: url.toList) := by
  intro url
  have absolute : Text.hasAuthorityMark url = true ↔ "://".toList <:+: url.toList :=
    Text.occursIn_iff _ _
  have checked : p.compileChecked isPattern .context n =
      if Text.hasAuthorityMark url then .ok (p.compileAs .context n)
      else .error (.malformedContext ⟨"@id", "not an absolute URL"⟩) := by
    have check : ContextCheck.check (p.compileAs .context n).document = _ :=
      ContextPass.check_compile p.tree p.metadata n
    rw [compileChecked, Mode.check, check]
    change (Except.map _ (Except.mapError _ (if Text.hasAuthorityMark url then _ else _))) = _
    split <;> rfl
  rw [checked, ← absolute]
  split <;> simp_all

end CredentialSchema

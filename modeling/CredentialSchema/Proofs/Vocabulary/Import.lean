import CredentialSchema.Proofs.Tree.Edit
import CredentialSchema.Vocabulary.Import

/-!
An import as a composition of operations on the tree. Each candidate is added, patched, given
its source and then one element definition for each level of its shape, so the whole import is
`Sound` because its parts are.
-/
namespace CredentialSchema.Tree

variable {t t' : Tree} {s s' : IdSource}

theorem applyShape_sound (c : Candidate) (shape : Shape) (t : Tree) (id : PropertyId)
    (s : IdSource) : Sound (t, s) (t.applyShape c shape id s) := by
  induction shape generalizing t id s with
  | scalar kind format =>
    rw [applyShape]
    split
    · exact .refl _
    · exact .getD fun _ => update?_sound
  | listOf element ih =>
    rw [applyShape]
    split
    · next elementId t' given => exact (setElement_sound given).trans (ih t' elementId _)
    · exact .refl _

theorem populate_sound (c : Candidate) (t : Tree) (id : PropertyId) (s : IdSource) :
    Sound (t, s) (t.populate c id s) := by
  rw [populate]
  refine .trans ?_ (applyShape_sound c _ _ id s)
  exact .trans (.getD fun _ => update?_sound) (.getD fun _ => setSource?_sound)

theorem importEach_sound {target : Option PropertyId} {cs : List Candidate}
    {report report' : ImportReport}
    (h : importEach target cs t s report = (.ok report', t', s')) : Sound (t, s) (t', s') := by
  induction cs generalizing t s report with
  | nil =>
    cases h
    exact .refl _
  | cons c cs ih =>
    rw [importEach] at h
    split at h
    · exact ih h
    · split at h
      · cases h
      · exact ih h
      · next id added hadd =>
        have first := (add_sound hadd).trans (populate_sound c added id (s.advance 1))
        exact first.trans (ih h)

end CredentialSchema.Tree

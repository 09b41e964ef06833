import CredentialSchema.Proofs.Tree.Loading
import CredentialSchema.Proofs.Vocabulary.Container

/-!
Runs of operations on a tree. An `Edit` is one call with its arguments, and a call that is
refused leaves the tree and the source of identifiers as they were. In a run every draw is new
to the tree it goes into; nothing else is asked of the source. Every tree that a run reaches
from a loadable one is loadable again.
-/
namespace CredentialSchema.Tree

/-- One call of an operation. -/
inductive Edit
  | add (parent : Option PropertyId)
  | delete (id : PropertyId)
  | move (id : PropertyId) (dir : Direction)
  | update (id : PropertyId) (u : Patch)
  | setElement (id : PropertyId) (kind : Kind)
  | importInto (target : Option PropertyId) (candidates : List Candidate)

/-- What a call leaves of the tree and of the source. -/
def Edit.perform : Edit → Tree × IdSource → Tree × IdSource
  | .add parent, (t, s) =>
    match t.add (s.ahead 0) parent with
    | .ok (some (_, t')) => (t', s.advance 1)
    | _ => (t, s)
  | .delete id, (t, s) => (((t.delete? id).map Prod.snd).getD t, s)
  | .move id dir, (t, s) => ((t.move? id dir).getD t, s)
  | .update id u, (t, s) => ((t.update? id u).getD t, s)
  | .setElement id kind, (t, s) =>
    match t.setElement (s.ahead 0) id kind with
    | .ok (some (_, t')) => (t', s.advance 1)
    | _ => (t, s)
  | .importInto target candidates, (t, s) =>
    match t.import? target candidates s with
    | .ok (some (t', s', _)) => (t', s')
    | _ => (t, s)

/-- What a run reaches from a tree and a source. -/
inductive Run (x : Tree × IdSource) : Tree × IdSource → Prop
  | start : Run x x
  | step (e : Edit) {y : Tree × IdSource} : Run x y → y.2.Fresh (e.perform y).2 y.1.ids →
    Run x (e.perform y)

/-- Distinct identifiers, and nothing held that a kind does not permit. -/
structure WellFormed (t : Tree) : Prop where
  distinct : t.ids.Nodup
  legal : Property.Legal t.roots

theorem wellFormed_iff (t : Tree) : t.WellFormed ↔ ofProperties t.roots = .ok ⟨t.roots, 0⟩ := by
  rw [ofProperties_eq_ok_iff]
  exact ⟨fun h => ⟨rfl, h.distinct, h.legal⟩, fun h => ⟨h.2.1, h.2.2⟩⟩

theorem perform_sound (e : Edit) (x : Tree × IdSource) : Sound x (e.perform x) := by
  obtain ⟨t, s⟩ := x
  cases e with
  | add parent =>
    rw [Edit.perform]
    split
    · next id t' added => exact add_sound added
    · exact .refl _
  | delete id =>
    refine .getD fun t' left => ?_
    obtain ⟨⟨gone, _⟩, removed, rfl⟩ := Option.map_eq_some_iff.1 left
    exact delete?_sound removed
  | move id dir => exact .getD fun _ => move?_sound
  | update id u => exact .getD fun _ => update?_sound
  | setElement id kind =>
    rw [Edit.perform]
    split
    · next elementId t' given => exact setElement_sound given
    · exact .refl _
  | importInto target candidates =>
    rw [Edit.perform]
    split
    · next imported => exact import?_sound imported
    · exact .refl _

theorem WellFormed.perform {x : Tree × IdSource} (h : x.1.WellFormed) (e : Edit)
    (fresh : x.2.Fresh (e.perform x).2 x.1.ids) : (e.perform x).1.WellFormed :=
  ⟨(perform_sound e x).nodup fresh h.distinct, (perform_sound e x).legal h.legal⟩

theorem WellFormed.run {x y : Tree × IdSource} (h : x.1.WellFormed) (run : Run x y) :
    y.1.WellFormed := by
  induction run with
  | start => exact h
  | step e _ fresh ih => exact ih.perform e fresh

theorem wellFormed_empty : empty.WellFormed :=
  ⟨by simp [empty, ids, Property.idsOfList], Property.legal_nil⟩

/-- From the empty tree or a loaded one, through any operations in any order, identifiers stay
distinct, every property holds only what its kind permits, and the tree would load again. -/
theorem run_loadable {x y : Tree × IdSource}
    (start : x.1 = empty ∨ ∃ roots, ofProperties roots = .ok x.1) (run : Run x y) :
    y.1.ids.Nodup ∧
      (∀ p ∈ Property.subtreeOfList y.1.roots,
        (p.members ≠ [] → p.kind = .object) ∧ (p.element ≠ none → p.kind = .array)) ∧
      ofProperties y.1.roots = .ok ⟨y.1.roots, 0⟩ := by
  have wellFormed : x.1.WellFormed := by
    rcases start with isEmpty | ⟨roots, loaded⟩
    · exact isEmpty ▸ wellFormed_empty
    · obtain ⟨same, distinct, legal⟩ := (ofProperties_eq_ok_iff roots x.1).1 loaded
      rw [same]
      exact ⟨distinct, legal⟩
  have kept := wellFormed.run run
  exact ⟨kept.distinct, kept.legal, (wellFormed_iff y.1).1 kept⟩

/-- A property becomes an array of objects, and a list of dates is imported into its element. -/
theorem run_loadable_import_into_element :
    ∃ y, Run (empty, ⟨Uuid.numbered, 0⟩) y ∧ y.1.size = 4 ∧ y.1.ids.Nodup ∧
      (∀ p ∈ Property.subtreeOfList y.1.roots,
        (p.members ≠ [] → p.kind = .object) ∧ (p.element ≠ none → p.kind = .array)) ∧
      ofProperties y.1.roots = .ok ⟨y.1.roots, 0⟩ := by
  let source : IdSource := ⟨Uuid.numbered, 0⟩
  let dates : Candidate := { id := "dates", name := "dates", valueType := "date[]" }
  have added := Run.step (.add none) (.start (x := (empty, source))) (by decide +kernel)
  have retyped := added.step (.update (source.ahead 0) { kind := some .array }) (by decide +kernel)
  have given := retyped.step (.setElement (source.ahead 0) .object) (by decide +kernel)
  have imported := given.step (.importInto (some (source.ahead 1)) [dates]) (by decide +kernel)
  exact ⟨_, imported, by decide +kernel, run_loadable (.inl rfl) imported⟩

end CredentialSchema.Tree

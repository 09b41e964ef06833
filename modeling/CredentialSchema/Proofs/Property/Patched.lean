import CredentialSchema.Property.Patch

/-!
A patch field by field. What the patch leaves out stays as it was, a new name goes along the chain
of element definitions, and a change of kind takes with it what the new kind may not hold.
-/
namespace CredentialSchema.Property

mutual
/-- The element definition of a property, the element definition of that, and so on. -/
def elementChain : Property → List Property
  | ⟨_, _, e⟩ => elementChainOfOption e

def elementChainOfOption : Option Property → List Property
  | none => []
  | some p => p :: elementChain p
end

/-- What a patch makes of a property. The patched fields have their new values and the others their
old ones. The members go exactly with a change to a kind other than object, and the element
definition with a change to one other than array; one that stays has a new name along its chain. -/
structure Patched (u : Patch) (p p' : Property) : Prop where
  decl : p'.decl = { p.decl with
    name := u.name.getD p.name
    displayName := u.displayName.getD p.decl.displayName
    description := u.description.getD p.decl.description
    kind := u.kind.getD p.kind
    required := u.required.getD p.decl.required
    constraints := u.constraints.getD p.decl.constraints }
  members : p'.members = if p'.kind ≠ p.kind ∧ p'.kind ≠ .object then [] else p.members
  element : p'.kind ≠ p.kind ∧ p'.kind ≠ .array → p'.element = none
  chain : ¬ (p'.kind ≠ p.kind ∧ p'.kind ≠ .array) →
    (elementChain p').map (fun q => (q.decl, q.members)) =
      (elementChain p).map fun q => ({ q.decl with name := u.name.getD q.name }, q.members)

mutual
theorem elementChain_renameChain (name : String) : ∀ p : Property,
    (elementChain (renameChain name p)).map (fun q => (q.decl, q.members)) =
      (elementChain p).map fun q => ({ q.decl with name }, q.members)
  | ⟨_, _, e⟩ => elementChain_renameElement name e

theorem elementChain_renameElement (name : String) : ∀ e : Option Property,
    (elementChainOfOption (renameElement name e)).map (fun q => (q.decl, q.members)) =
      (elementChainOfOption e).map fun q => ({ q.decl with name }, q.members)
  | none => rfl
  | some ⟨d, ms, e⟩ => by
    have below := elementChain_renameChain name ⟨d, ms, e⟩
    rw [renameChain] at below
    simp only [renameElement, renameChain, elementChainOfOption, List.map_cons, below]
end

def renameElement? (name : Option String) (e : Option Property) : Option Property :=
  name.elim e fun name => renameElement name e

theorem elementChain_renameElement? (name : Option String) (e : Option Property) :
    (elementChainOfOption (renameElement? name e)).map (fun q => (q.decl, q.members)) =
      (elementChainOfOption e).map
        fun q => ({ q.decl with name := name.getD q.name }, q.members) := by
  cases name with
  | none => rfl
  | some name => exact elementChain_renameElement name e

theorem patch_eq (u : Patch) (d : Declaration) (ms : List Property) (e : Option Property) :
    patch u ⟨d, ms, e⟩ =
      ⟨{ d with
          name := u.name.getD d.name
          displayName := u.displayName.getD d.displayName
          description := u.description.getD d.description
          kind := u.kind.getD d.kind
          required := u.required.getD d.required
          constraints := u.constraints.getD d.constraints },
        if u.kind.getD d.kind ≠ d.kind ∧ u.kind.getD d.kind ≠ .object then [] else ms,
        if u.kind.getD d.kind ≠ d.kind ∧ u.kind.getD d.kind ≠ .array then none
          else renameElement? u.name e⟩ := by
  obtain ⟨name, displayName, description, kind, required, constraints⟩ := u
  cases name <;> cases kind with
  | none => simp [patch, renameChain, renameElement?]
  | some kind =>
    by_cases same : kind = d.kind
    · simp [patch, renameChain, renameElement?, changeKind, same]
    · by_cases isObject : kind = .object <;> by_cases isArray : kind = .array <;>
        simp_all [patch, renameChain, renameElement?, changeKind]

theorem id_patch (u : Patch) (p : Property) : (patch u p).id = p.id := by
  obtain ⟨d, ms, e⟩ := p
  rw [patch_eq]

theorem patched_patch (u : Patch) (p : Property) : Patched u p (patch u p) := by
  obtain ⟨d, ms, e⟩ := p
  rw [patch_eq]
  refine ⟨rfl, rfl, fun other => if_pos other, fun stays => ?_⟩
  rw [elementChain, if_neg stays]
  exact elementChain_renameElement? u.name e

end CredentialSchema.Property

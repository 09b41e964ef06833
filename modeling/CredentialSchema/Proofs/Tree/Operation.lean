import CredentialSchema.Tree.Basic

/-!
What an operation that reports a change has done. Each of them is reduced to the one walk it
makes, so that later proofs need not open it, and each leaves the tree one revision further.
-/
namespace CredentialSchema.Tree

variable {t t' : Tree}

theorem add_cases {fresh id : PropertyId} {parent : Option PropertyId}
    (h : t.add fresh parent = .ok (some (id, t'))) :
    (parent = none ∧ t' = t.advance (t.roots ++ [.fresh fresh .string ""])) ∨
      ∃ holder p, parent = some holder ∧ t.find? holder = some p ∧ p.kind = .object ∧
        (t.modify? holder fun p =>
          { p with members := p.members ++ [.fresh fresh .string ""] }) = some t' := by
  cases parent with
  | none =>
    simp only [add, Except.ok.injEq, Option.some.injEq, Prod.mk.injEq] at h
    exact .inl ⟨rfl, h.2.symm⟩
  | some holder =>
    simp only [add] at h
    cases found : t.find? holder with
    | none => simp [found] at h
    | some p =>
      by_cases isObject : p.kind = .object
      · simp only [found, if_pos isObject, Except.ok.injEq, Option.map_eq_some_iff,
          Prod.mk.injEq] at h
        obtain ⟨t'', modified, -, rfl⟩ := h
        exact .inr ⟨holder, p, rfl, found, isObject, modified⟩
      · simp [found, if_neg isObject] at h

theorem setElement_cases {fresh id elementId : PropertyId} {kind : Kind}
    (h : t.setElement fresh id kind = .ok (some (elementId, t'))) :
    ∃ p, t.find? id = some p ∧ p.kind = .array ∧
      (t.modify? id fun p => { p with element := some (.fresh fresh kind p.name) }) = some t' := by
  simp only [setElement] at h
  cases found : t.find? id with
  | none => simp [found] at h
  | some p =>
    by_cases isArray : p.kind = .array
    · simp only [found, if_pos isArray, Except.ok.injEq, Option.map_eq_some_iff,
        Prod.mk.injEq] at h
      obtain ⟨t'', modified, -, rfl⟩ := h
      exact ⟨p, rfl, isArray, modified⟩
    · simp [found, if_neg isArray] at h

theorem modify?_revision {id : PropertyId} {f : Property → Property}
    (h : t.modify? id f = some t') : t'.revision = t.revision + 1 := by
  obtain ⟨roots, -, rfl⟩ := Option.map_eq_some_iff.1 h
  rfl

theorem add_revision {fresh id : PropertyId} {parent : Option PropertyId}
    (h : t.add fresh parent = .ok (some (id, t'))) : t'.revision = t.revision + 1 := by
  rcases add_cases h with ⟨-, rfl⟩ | ⟨holder, p, -, -, -, modified⟩
  · rfl
  · exact modify?_revision modified

theorem setElement_revision {fresh id elementId : PropertyId} {kind : Kind}
    (h : t.setElement fresh id kind = .ok (some (elementId, t'))) :
    t'.revision = t.revision + 1 := by
  obtain ⟨p, -, -, modified⟩ := setElement_cases h
  exact modify?_revision modified

theorem delete?_revision {id : PropertyId} {gone : Property}
    (h : t.delete? id = some (gone, t')) : t'.revision = t.revision + 1 := by
  obtain ⟨r, -, eq⟩ := Option.map_eq_some_iff.1 h
  obtain ⟨-, rfl⟩ := Prod.mk.inj eq
  rfl

theorem move?_revision {id : PropertyId} {dir : Direction} (h : t.move? id dir = some t') :
    t'.revision = t.revision + 1 := by
  obtain ⟨roots, -, rfl⟩ := Option.map_eq_some_iff.1 h
  rfl

end CredentialSchema.Tree

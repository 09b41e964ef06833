import CredentialSchema.Proofs.Compile.Terms
import CredentialSchema.Proofs.Vocabulary.Imported

/-!
Which term an imported property publishes. The import records the catalogue entry on the
outermost declaration, while the context pass reads it from the leaf. The two are one
declaration exactly if the value type has no array level; otherwise the leaf has no entry, and
its term is a fragment of the context URL.
-/
namespace CredentialSchema

open ContextPass

def Candidate.iri (c : Candidate) (vocabulary : String) : String :=
  if isAbsoluteIri c.id then c.id else vocabulary ++ c.id

theorem leaves_of_not_container {d : Declaration} (h : d.kind.isContainer = false)
    (ms : List Property) (e : Option Property) : leaves ⟨d, ms, e⟩ = [d] := by
  rw [leaves]
  cases kind : d.kind with
  | object => simp [kind, Kind.isContainer] at h
  | array => simp [kind, Kind.isContainer] at h
  | _ => rfl

/-- The leaf inside the array levels has the name of the outermost declaration, but its
catalogue entry only if there are no levels between them. -/
theorem leaves_shaped (c : Candidate) (shape : Shape) {d : Declaration} (s : IdSource)
    (kind : d.kind = shape.kind) (scalar : shape.innermost.kind.isContainer = false) :
    ∃ l, leaves (c.shaped shape d s) = [l] ∧ l.name = d.name ∧
      l.source = if shape.levels = 0 then d.source else none := by
  induction shape generalizing d s with
  | scalar k format =>
    have notContainer : d.kind.isContainer = false := kind ▸ scalar
    rw [Candidate.shaped]
    by_cases unset : (c.mergedConstraints format).isEmpty
    · simp only [unset, if_true]
      exact ⟨d, leaves_of_not_container notContainer [] none, rfl, rfl⟩
    · simp only [unset, Bool.false_eq_true, if_false]
      let constrained : Declaration := { d with constraints := some (c.mergedConstraints format) }
      have sameKind : constrained.kind.isContainer = false := notContainer
      exact ⟨constrained, leaves_of_not_container sameKind [] none, rfl, rfl⟩
  | listOf element ih =>
    let below : Declaration := { id := s.ahead 0, name := d.name, kind := element.kind }
    obtain ⟨l, single, name, source⟩ := ih (d := below) (s.advance 1) rfl scalar
    refine ⟨l, ?_, name, ?_⟩
    · rw [Candidate.shaped, leaves, show d.kind = .array from kind]
      exact single
    · simpa [Shape.levels, below] using source

theorem leaves_property (c : Candidate) (s : IdSource)
    (scalar : (ValueType.shape c.valueType).innermost.kind.isContainer = false) :
    ∃ l, leaves (c.property s) = [l] ∧ l.name = c.name ∧
      l.source = if (ValueType.shape c.valueType).levels = 0 then some c.id else none :=
  leaves_shaped c (ValueType.shape c.valueType) (s.advance 1) rfl scalar

theorem termIri_of_source {c : Candidate} {l : Declaration} {levels : Nat} (name : l.name = c.name)
    (source : l.source = if levels = 0 then some c.id else none)
    (notBlank : Text.isBlankText c.id = false) (url vocabulary : String) :
    termIri url vocabulary l = if levels = 0 then c.iri vocabulary else url ++ "#" ++ c.name := by
  by_cases flat : levels = 0
  · simp [termIri, source, flat, Text.present, Option.filter, notBlank, Candidate.iri]
  · simp [termIri, source, flat, Text.present, name]

namespace Tree

/-- What an import at the top level leaves of an accepted candidate: its property, behind what
the candidates before it left and in front of what those after it leave. -/
theorem import_roots (before : List Candidate) (c : Candidate) (after : List Candidate)
    (source : IdSource) :
    ∃ t₁ s₁ r₁, empty.import? none before source = .ok (some (t₁, s₁, r₁)) ∧
      ∃ t s r, empty.import? none (before ++ c :: after) source = .ok (some (t, s, r)) ∧
        (source.Fresh s [] → c.obstacle? t₁.roots = none →
          ∃ new, t.roots = t₁.roots ++ c.property s₁ :: new) := by
  have container : empty.Accepts none := trivial
  obtain ⟨t₁, s₁, r₁, first⟩ := importEach_none_isOk before empty source {}
  obtain ⟨t, s, r, second⟩ := importEach_none_isOk (c :: after) t₁ s₁ r₁
  have both : importEach none (before ++ c :: after) empty source {} = (.ok r, t, s) :=
    (importEach_append first _).trans second
  have all := import?_of_importEach container both
  refine ⟨t₁, s₁, r₁, import?_of_importEach container first, t, s, r, all, fun fresh accepted => ?_⟩
  obtain ⟨y, added, step, roots⟩ := importEach_none_accepted (s := s₁) accepted after r₁
  have later : importEach none after y.1 y.2 { r₁ with imported := r₁.imported ++ [s₁.ahead 0] } =
      (.ok r, t, s) := step ▸ second
  have freshAfter := ((importEach_sound first).fresh_split (importEach_sound second) fresh).2
  obtain ⟨freshHere, freshLater⟩ := added.fresh_split (importEach_sound later) freshAfter
  obtain ⟨new, extended⟩ := importEach_none_roots later freshLater
  exact ⟨new, by rw [extended, roots freshHere, List.append_assoc, List.singleton_append]⟩

end Tree

theorem entry_of_roots {t : Tree} {old new : List Property} {c : Candidate} {s : IdSource}
    (roots : t.roots = old ++ c.property s :: new)
    (scalar : (ValueType.shape c.valueType).innermost.kind.isContainer = false)
    (notBlank : Text.isBlankText c.id = false) (notHeader : c.name ∉ ["@version", "@protected"])
    (unclaimed : ∀ d ∈ leavesOfList old, d.name ≠ c.name) (m : Metadata) (n : Namespaces) :
    ((compile t m n).document.get? "@context").bind (fun terms => terms.get? c.name) =
      some (.string (if (ValueType.shape c.valueType).levels = 0 then c.iri n.vocabulary
        else url m n ++ "#" ++ c.name)) := by
  obtain ⟨l, single, name, recorded⟩ := leaves_property c s scalar
  have earlier : (leavesOfList old).find? (fun d => d.name == c.name) = none :=
    List.find?_eq_none.2 fun d mem => by simpa using unclaimed d mem
  have claims : (leavesOfList t.roots).find? (fun d => d.name == c.name) = some l := by
    rw [roots, leavesOfList_append, leavesOfList, single, List.find?_append, earlier,
      Option.none_or, List.singleton_append, List.find?_cons]
    simp [name]
  rw [entry_compile t m n notHeader, claims, Option.map_some,
    termIri_of_source name recorded notBlank]

/-- The entry that an imported property publishes is the IRI of its catalogue entry exactly if
its value type has no array level, or the fragment happens to be the same text. -/
theorem imported_entry (before : List Candidate) (c : Candidate) (after : List Candidate)
    (source : IdSource) (m : Metadata) (n : Namespaces) :
    ∃ t₁ s₁ r₁, Tree.empty.import? none before source = .ok (some (t₁, s₁, r₁)) ∧
      ∃ t s r, Tree.empty.import? none (before ++ c :: after) source = .ok (some (t, s, r)) ∧
        (source.Fresh s [] → c.obstacle? t₁.roots = none →
          (ValueType.shape c.valueType).innermost.kind.isContainer = false →
          Text.isBlankText c.id = false → c.name ∉ ["@version", "@protected"] →
          (∀ d ∈ leavesOfList t₁.roots, d.name ≠ c.name) →
          let entry := ((compile t m n).document.get? "@context").bind fun terms =>
            terms.get? c.name
          let levels := (ValueType.shape c.valueType).levels
          let fragment := url m n ++ "#" ++ c.name
          entry = some (.string (if levels = 0 then c.iri n.vocabulary else fragment)) ∧
            (entry = some (.string (c.iri n.vocabulary)) ↔
              levels = 0 ∨ fragment = c.iri n.vocabulary)) := by
  obtain ⟨t₁, s₁, r₁, first, t, s, r, all, imported⟩ := Tree.import_roots before c after source
  refine ⟨t₁, s₁, r₁, first, t, s, r, all, ?_⟩
  intro fresh accepted scalar notBlank notHeader unclaimed entry levels fragment
  obtain ⟨new, roots⟩ := imported fresh accepted
  have value : entry = some (.string (if levels = 0 then c.iri n.vocabulary else fragment)) :=
    entry_of_roots roots scalar notBlank notHeader unclaimed m n
  refine ⟨value, ?_⟩
  rw [value]
  by_cases flat : levels = 0 <;> simp [flat]

theorem imported_entry_dates_after_salary :
    let salary : Candidate := { id := "vp-salary", name := "salary", valueType := "currency" }
    let dates : Candidate := { id := "vp-start", name := "dates", valueType := "array-of-date" }
    ∃ t s r, Tree.empty.import? none [salary, dates] ⟨Uuid.numbered, 0⟩ = .ok (some (t, s, r)) ∧
      ((compile t {} {}).document.get? "@context").bind (fun terms => terms.get? "dates") =
        some (.string (url {} {} ++ "#" ++ "dates")) := by
  intro salary dates
  obtain ⟨t₁, s₁, r₁, first, t, s, r, all, published⟩ :=
    imported_entry [salary] dates [] ⟨Uuid.numbered, 0⟩ {} {}
  have drawn : (Tree.empty.import? none [salary, dates] ⟨Uuid.numbered, 0⟩).toOption.join.map
      (fun r => r.2.1.drawn) = some 3 := by decide +kernel
  have before : (Tree.empty.import? none [salary] ⟨Uuid.numbered, 0⟩).toOption.join.map
      (fun r => (dates.obstacle? r.1.roots, (leavesOfList r.1.roots).map (·.name))) =
        some (none, ["salary"]) := by decide +kernel
  simp only [List.singleton_append] at all
  simp only [all, Except.toOption, Option.join_some, Option.map_some, Option.some.injEq] at drawn
  simp only [first, Except.toOption, Option.join_some, Option.map_some, Option.some.injEq,
    Prod.mk.injEq] at before
  have fresh : IdSource.Fresh ⟨Uuid.numbered, 0⟩ s [] :=
    IdSource.fresh_of_drawn (drawn.trans (Nat.zero_add _).symm) (by decide +kernel)
  have unclaimed : ∀ d ∈ leavesOfList t₁.roots, d.name ≠ dates.name := by
    intro d mem same
    have name : d.name ∈ ["salary"] := before.2 ▸ List.mem_map_of_mem mem
    rw [same] at name
    exact absurd name (by decide)
  have entry := (published fresh before.1 (by decide +kernel) (by decide +kernel) (by decide)
    unclaimed).1
  have levels : (ValueType.shape dates.valueType).levels = 1 := by decide +kernel
  rw [levels, if_neg Nat.one_ne_zero] at entry
  exact ⟨t, s, r, all, entry⟩

/-- A list of dates that is imported alone does not publish the IRI of its catalogue entry. -/
theorem dates_entry_ne_iri :
    let dates : Candidate :=
      { id := "vp-start", name := "start_dates", valueType := "array-of-date" }
    let m : Metadata := { title := "Person", category := some "kyc" }
    (ValueType.shape dates.valueType).innermost.kind.isContainer = false ∧
      Text.isBlankText dates.id = false ∧ dates.name ∉ ["@version", "@protected"] ∧
      ∃ t s r, Tree.empty.import? none [dates] ⟨Uuid.numbered, 0⟩ = .ok (some (t, s, r)) ∧
        IdSource.Fresh ⟨Uuid.numbered, 0⟩ s [] ∧
        ((compile t m {}).document.get? "@context").bind (fun terms => terms.get? dates.name) ≠
          some (.string (dates.iri ({} : Namespaces).vocabulary)) := by
  intro dates m
  have scalar : (ValueType.shape dates.valueType).innermost.kind.isContainer = false := by
    decide +kernel
  have notBlank : Text.isBlankText dates.id = false := by decide +kernel
  have notHeader : dates.name ∉ ["@version", "@protected"] := by decide
  have levels : (ValueType.shape dates.valueType).levels = 1 := by decide +kernel
  obtain ⟨t₁, s₁, r₁, first, t, s, r, all, imported⟩ :=
    Tree.import_roots [] dates [] ⟨Uuid.numbered, 0⟩
  have drawn : (Tree.empty.import? none [dates] ⟨Uuid.numbered, 0⟩).toOption.join.map
      (fun r => r.2.1.drawn) = some 2 := by decide +kernel
  simp only [List.nil_append] at all
  simp only [all, Except.toOption, Option.join_some, Option.map_some, Option.some.injEq] at drawn
  have fresh : IdSource.Fresh ⟨Uuid.numbered, 0⟩ s [] :=
    IdSource.fresh_of_drawn (drawn.trans (Nat.zero_add _).symm) (by decide +kernel)
  obtain ⟨rfl, -, -⟩ : t₁ = Tree.empty ∧ s₁ = ⟨Uuid.numbered, 0⟩ ∧ r₁ = {} := by
    simpa [Tree.import?, Tree.importInto, Tree.importEach, Except.map, eq_comm] using first
  obtain ⟨new, roots⟩ := imported fresh rfl
  refine ⟨scalar, notBlank, notHeader, t, s, r, all, fresh, ?_⟩
  have unclaimed : ∀ d ∈ leavesOfList Tree.empty.roots, d.name ≠ dates.name :=
    fun _ mem => absurd mem List.not_mem_nil
  rw [entry_of_roots roots scalar notBlank notHeader unclaimed, levels]
  intro same
  have hash : '#' ∈ (url m {} ++ "#" ++ dates.name).toList := by
    rw [String.toList_append, String.toList_append]
    exact List.mem_append_left _ (List.mem_append_right _ (by decide))
  have text : url m {} ++ "#" ++ dates.name = dates.iri ({} : Namespaces).vocabulary := by
    simpa using same
  rw [text] at hash
  exact absurd hash (by decide +kernel)

end CredentialSchema

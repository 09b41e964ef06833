import CredentialSchema.Proofs.Vocabulary.Container

/-!
What a candidate becomes. `Candidate.property` is the property that an import makes of it: one
declaration for each level of its shape, the catalogue entry recorded on the outermost, the
constraints on the innermost, the name on all. Adding and populating leaves exactly this in the
gap that the new identifier was put into.
-/
namespace CredentialSchema

namespace Candidate

/-- The levels of a shape from one declaration on, with fresh identifiers for those below. -/
def shaped (c : Candidate) : Shape → Declaration → IdSource → Property
  | .listOf element, d, s =>
    ⟨d, [], some (c.shaped element { id := s.ahead 0, name := d.name, kind := element.kind }
      (s.advance 1))⟩
  | .scalar _ format, d, _ =>
    let merged := c.mergedConstraints format
    if merged.isEmpty then ⟨d, [], none⟩ else ⟨{ d with constraints := some merged }, [], none⟩

def declaration (c : Candidate) (id : PropertyId) : Declaration where
  id := id
  name := c.name
  displayName := c.displayName
  description := c.description
  kind := (ValueType.shape c.valueType).kind
  source := some c.id

/-- The property that an import makes of a candidate. -/
def property (c : Candidate) (s : IdSource) : Property :=
  c.shaped (ValueType.shape c.valueType) (c.declaration (s.ahead 0)) (s.advance 1)

/-- How many identifiers that takes. -/
def draws (c : Candidate) : Nat := (ValueType.shape c.valueType).levels + 1

end Candidate

namespace Tree

open Property

variable {forest : Property → List Property} {t : Tree} {s : IdSource}

theorem find?_of_reaches {p : Property} (roots : t.roots = forest p)
    (h : Reaches forest p.id) : t.find? p.id = some p := by
  rw [find?, roots, h.find (find?_self p)]

theorem modify?_of_reaches (f : Property → Property) {p : Property} (roots : t.roots = forest p)
    (h : Reaches forest p.id) : t.modify? p.id f = some (t.advance (forest (f p))) := by
  rw [modify?, roots, h.modify (modify?_self f p), Option.map_some]

theorem drawnUntil_of_sound {t' : Tree} {y : Tree × IdSource} (h : Sound (t', s.advance 1) y) :
    s.drawnUntil y.2 = s.ahead 0 :: (s.advance 1).drawnUntil y.2 := by
  obtain ⟨n, source⟩ := h.source
  rw [source, IdSource.advance_advance, Nat.add_comm, IdSource.drawnUntil_succ]

theorem applyShape_eq (c : Candidate) (shape : Shape) {d : Declaration}
    (roots : t.roots = forest ⟨d, [], none⟩) (kind : d.kind = shape.kind)
    (reaches : ∀ id ∈ d.id :: s.drawnUntil (t.applyShape c shape d.id s).2, Reaches forest id)
    (distinct : (d.id :: s.drawnUntil (t.applyShape c shape d.id s).2).Nodup) :
    (t.applyShape c shape d.id s).1.roots = forest (c.shaped shape d s) ∧
      (t.applyShape c shape d.id s).2 = s.advance shape.levels := by
  induction shape generalizing forest t d s with
  | scalar k format =>
    have here := reaches d.id List.mem_cons_self
    rw [applyShape, Candidate.shaped]
    by_cases unset : (c.mergedConstraints format).isEmpty
    · simp [unset, roots, Shape.levels]
    · have patched := modify?_of_reaches (Property.patch
        { constraints := some (some (c.mergedConstraints format)) }) roots here
      simp only [unset, update?, patched]
      exact ⟨rfl, rfl⟩
  | listOf element ih =>
    have here := reaches d.id List.mem_cons_self
    have found := find?_of_reaches roots here
    have isArray : d.kind = .array := kind
    let below : Declaration := { id := s.ahead 0, name := d.name, kind := element.kind }
    let t' := t.advance (forest ⟨d, [], some ⟨below, [], none⟩⟩)
    have given : t.setElement (s.ahead 0) d.id element.kind = .ok (some (s.ahead 0, t')) := by
      have modified := modify?_of_reaches (fun p =>
        { p with element := some (.fresh (s.ahead 0) element.kind p.name) }) roots here
      simp only [setElement, found, modified]
      exact if_pos isArray
    have step : t.applyShape c (.listOf element) d.id s =
        t'.applyShape c element (s.ahead 0) (s.advance 1) := by rw [applyShape, given]
    rw [step, drawnUntil_of_sound (applyShape_sound c element t' (s.ahead 0) (s.advance 1))]
      at reaches distinct
    obtain ⟨apart, distinctBelow⟩ := List.nodup_cons.1 distinct
    have inner := @ih (fun p => forest ⟨d, [], some p⟩) t' (s.advance 1) below rfl rfl ?_
      distinctBelow
    · rw [step, Shape.levels, Nat.add_comm, ← IdSource.advance_advance]
      exact inner
    · intro id drawn
      have other : d.id ≠ id := by
        rintro rfl
        exact apart drawn
      exact (reaches id (List.mem_cons_of_mem _ drawn)).element other (by simp [idsOfList])

theorem applyShape_draws_le (c : Candidate) (shape : Shape) (t : Tree) (id : PropertyId)
    (s : IdSource) : ∃ n ≤ shape.levels, (t.applyShape c shape id s).2 = s.advance n := by
  induction shape generalizing t id s with
  | scalar kind format =>
    refine ⟨0, le_rfl, ?_⟩
    rw [applyShape]
    split <;> rfl
  | listOf element ih =>
    rw [applyShape]
    split
    · next elementId t' given =>
      obtain ⟨n, le, source⟩ := ih t' elementId (s.advance 1)
      exact ⟨1 + n, by rw [Shape.levels]; omega, by rw [source, IdSource.advance_advance]⟩
    · exact ⟨0, Nat.zero_le _, rfl⟩

theorem patch_fresh (c : Candidate) (id : PropertyId) (kind : Kind) :
    Property.patch
        { name := some c.name
          displayName := some c.displayName
          description := some c.description
          kind := some kind }
        (.fresh id .string "") =
      ⟨{ id, kind, name := c.name, displayName := c.displayName, description := c.description },
        [], none⟩ := by
  cases kind <;> rfl

theorem populate_eq (c : Candidate) (roots : t.roots = forest (.fresh (s.ahead 0) .string ""))
    (reaches : ∀ id ∈ s.drawnUntil (t.populate c (s.ahead 0) (s.advance 1)).2, Reaches forest id)
    (distinct : (s.drawnUntil (t.populate c (s.ahead 0) (s.advance 1)).2).Nodup) :
    (t.populate c (s.ahead 0) (s.advance 1)).1.roots = forest (c.property s) ∧
      (t.populate c (s.ahead 0) (s.advance 1)).2 = s.advance c.draws := by
  rw [drawnUntil_of_sound (populate_sound c t (s.ahead 0) (s.advance 1))] at reaches distinct
  have here := reaches (s.ahead 0) List.mem_cons_self
  let bare : Declaration := { c.declaration (s.ahead 0) with source := none }
  let patched := t.advance (forest ⟨bare, [], none⟩)
  let sourced := patched.advance (forest ⟨c.declaration (s.ahead 0), [], none⟩)
  have hpatched : t.update? (s.ahead 0)
      { name := some c.name
        displayName := some c.displayName
        description := some c.description
        kind := some (ValueType.shape c.valueType).kind } = some patched := by
    have modified := modify?_of_reaches (Property.patch
      { name := some c.name
        displayName := some c.displayName
        description := some c.description
        kind := some (ValueType.shape c.valueType).kind }) roots here
    rwa [patch_fresh] at modified
  have hsourced : patched.setSource? (s.ahead 0) c.id = some sourced :=
    @modify?_of_reaches forest patched
      (fun p => { p with decl := { p.decl with source := some c.id } }) ⟨bare, [], none⟩ rfl here
  have step : t.populate c (s.ahead 0) (s.advance 1) =
      sourced.applyShape c (ValueType.shape c.valueType) (s.ahead 0) (s.advance 1) := by
    simp only [populate, hpatched, Option.getD_some, hsourced]
  rw [step] at reaches distinct
  rw [step, Candidate.draws, Nat.add_comm, ← IdSource.advance_advance]
  exact @applyShape_eq forest sourced (s.advance 1) c (ValueType.shape c.valueType)
    (c.declaration (s.ahead 0)) rfl rfl reaches distinct

theorem importEach_accepted {target : Option PropertyId} (container : t.Accepts target)
    {c : Candidate} (accepted : c.obstacle? (t.children target) = none) (cs : List Candidate)
    (report : ImportReport) :
    ∃ y : Tree × IdSource, Sound (t, s) y ∧ (∃ n ≤ c.draws, y.2 = s.advance n) ∧
      importEach target (c :: cs) t s report = importEach target cs y.1 y.2
        { report with imported := report.imported ++ [s.ahead 0] } ∧
      (s.Fresh y.2 t.ids → y.2 = s.advance c.draws ∧
        ∃ t', t.place? target (c.property s) = some t' ∧ y.1.roots = t'.roots) := by
  obtain ⟨forest, placed, gap⟩ := place?_gap container
  let added := t.advance (forest (.fresh (s.ahead 0) .string ""))
  have hadded : t.add (s.ahead 0) target = .ok (some (s.ahead 0, added)) := by
    rw [add_of_accepts container, placed]
    rfl
  have populated := populate_sound c added (s.ahead 0) (s.advance 1)
  refine ⟨added.populate c (s.ahead 0) (s.advance 1), (add_sound hadded).trans populated,
    ?_, ?_, ?_⟩
  · obtain ⟨n, le, source⟩ :=
      applyShape_draws_le c (ValueType.shape c.valueType) _ (s.ahead 0) (s.advance 1)
    exact ⟨1 + n, by rw [Candidate.draws]; omega,
      by rw [populate, source, IdSource.advance_advance]⟩
  · rw [importEach]
    simp only [accepted, hadded]
  · intro fresh
    have reaches (id : PropertyId)
        (drawn : id ∈ s.drawnUntil (added.populate c (s.ahead 0) (s.advance 1)).2) :
        Reaches forest id := gap id (fresh.absent id drawn)
    obtain ⟨roots, source⟩ := populate_eq (t := added) c rfl reaches fresh.distinct
    exact ⟨source, _, placed (c.property s), roots⟩

theorem importEach_none_accepted {c : Candidate} (accepted : c.obstacle? t.roots = none)
    (cs : List Candidate) (report : ImportReport) :
    ∃ y : Tree × IdSource, Sound (t, s) y ∧
      importEach none (c :: cs) t s report = importEach none cs y.1 y.2
        { report with imported := report.imported ++ [s.ahead 0] } ∧
      (s.Fresh y.2 t.ids → y.1.roots = t.roots ++ [c.property s]) := by
  obtain ⟨y, sound, -, step, placed⟩ :=
    @importEach_accepted t s none trivial c accepted cs report
  refine ⟨y, sound, step, fun fresh => ?_⟩
  obtain ⟨-, t', at_end, roots⟩ := placed fresh
  obtain rfl := Option.some.inj at_end
  exact roots

theorem importEach_none_isOk (cs : List Candidate) (t : Tree) (s : IdSource)
    (report : ImportReport) :
    ∃ t' s' report', importEach none cs t s report = (.ok report', t', s') := by
  induction cs generalizing t s report with
  | nil => exact ⟨t, s, report, rfl⟩
  | cons c cs ih =>
    cases obstacle : c.obstacle? t.roots with
    | some o =>
      rw [importEach, children]
      simp only [obstacle]
      exact ih _ _ _
    | none =>
      obtain ⟨y, -, step, -⟩ := importEach_none_accepted (s := s) obstacle cs report
      rw [step]
      exact ih _ _ _

theorem importEach_none_roots {cs : List Candidate} {t t' : Tree} {s s' : IdSource}
    {report report' : ImportReport} (h : importEach none cs t s report = (.ok report', t', s'))
    (fresh : s.Fresh s' t.ids) : ∃ new, t'.roots = t.roots ++ new := by
  induction cs generalizing t s report with
  | nil =>
    cases h
    exact ⟨[], by simp⟩
  | cons c cs ih =>
    cases obstacle : c.obstacle? t.roots with
    | some o =>
      rw [importEach, children] at h
      simp only [obstacle] at h
      exact ih h fresh
    | none =>
      obtain ⟨y, sound, step, roots⟩ := importEach_none_accepted (s := s) obstacle cs report
      rw [step] at h
      obtain ⟨first, rest⟩ := sound.fresh_split (importEach_sound h) fresh
      obtain ⟨new, added⟩ := ih h rest
      exact ⟨c.property s :: new, by simp [added, roots first]⟩

theorem importEach_append {target : Option PropertyId} {cs : List Candidate} {t t' : Tree}
    {s s' : IdSource} {report report' : ImportReport}
    (h : importEach target cs t s report = (.ok report', t', s')) (cs' : List Candidate) :
    importEach target (cs ++ cs') t s report = importEach target cs' t' s' report' := by
  induction cs generalizing t s report with
  | nil =>
    cases h
    rfl
  | cons c cs ih =>
    rw [importEach] at h
    rw [List.cons_append, importEach]
    split at h
    · exact ih h
    · split at h
      · cases h
      · exact ih h
      · exact ih h

end Tree
end CredentialSchema

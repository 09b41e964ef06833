import Mathlib.Algebra.Ring.Nat
import CredentialSchema.Proofs.Property.Everywhere
import CredentialSchema.Proofs.Vocabulary.Imported

/-!
An import step by step. Once its draws are known to be new, an import is a walk through the
candidates: each is skipped for what stands in its way among the children of the container, or
its property becomes the next child. `Imports` is that walk, without the operations on the tree
that make it up and without the source of identifiers.
-/
namespace CredentialSchema

open Property hiding id

namespace Candidate

theorem decl_shaped (c : Candidate) (shape : Shape) (d : Declaration) (s : IdSource) :
    ∃ constraints, (c.shaped shape d s).decl = { d with constraints } := by
  cases shape with
  | listOf element => exact ⟨d.constraints, rfl⟩
  | scalar kind format =>
    rw [shaped]
    by_cases unset : (c.mergedConstraints format).isEmpty
    · exact ⟨d.constraints, by simp [unset]⟩
    · exact ⟨some (c.mergedConstraints format), by simp [unset]⟩

@[simp] theorem id_property (c : Candidate) (s : IdSource) : (c.property s).id = s.ahead 0 := by
  obtain ⟨constraints, decl⟩ :=
    c.decl_shaped (ValueType.shape c.valueType) (c.declaration (s.ahead 0)) (s.advance 1)
  rw [Property.id, property, decl]
  rfl

@[simp] theorem source_property (c : Candidate) (s : IdSource) :
    (c.property s).decl.source = some c.id := by
  obtain ⟨constraints, decl⟩ :=
    c.decl_shaped (ValueType.shape c.valueType) (c.declaration (s.ahead 0)) (s.advance 1)
  rw [property, decl]
  rfl

theorem everywhere_shaped {P : Property → Prop}
    (level : ∀ (d : Declaration) (e : Option Property), (∀ q ∈ e, q.name = d.name) → P ⟨d, [], e⟩)
    (c : Candidate) (shape : Shape) (d : Declaration) (s : IdSource) :
    Everywhere P [c.shaped shape d s] := by
  induction shape generalizing d s with
  | scalar kind format =>
    rw [shaped]
    by_cases unset : (c.mergedConstraints format).isEmpty <;>
      simpa [unset, everywhere_cons] using level _ none (by simp)
  | listOf element ih =>
    let below : Declaration := { id := s.ahead 0, name := d.name, kind := element.kind }
    obtain ⟨constraints, decl⟩ := c.decl_shaped element below (s.advance 1)
    rw [shaped, everywhere_cons]
    refine ⟨level _ _ ?_, everywhere_nil, ih below (s.advance 1), everywhere_nil⟩
    intro q isElement
    obtain rfl := Option.some.inj isElement
    rw [Property.name, decl]

theorem ids_shaped (c : Candidate) (shape : Shape) (d : Declaration) (s : IdSource) :
    (c.shaped shape d s).ids = d.id :: s.drawnUntil (s.advance shape.levels) := by
  induction shape generalizing d s with
  | scalar kind format =>
    rw [shaped]
    by_cases unset : (c.mergedConstraints format).isEmpty <;>
      simp [unset, ids, idsOfList, Shape.levels]
  | listOf element ih =>
    have below := ih { id := s.ahead 0, name := d.name, kind := element.kind } (s.advance 1)
    rw [IdSource.advance_advance, Nat.add_comm] at below
    simp [shaped, ids, idsOfList, below, Shape.levels, IdSource.drawnUntil_succ]

theorem ids_property (c : Candidate) (s : IdSource) :
    (c.property s).ids = s.drawnUntil (s.advance c.draws) := by
  have below := c.ids_shaped (ValueType.shape c.valueType) (c.declaration (s.ahead 0))
    (s.advance 1)
  rw [IdSource.advance_advance, Nat.add_comm] at below
  rw [property, below, draws, IdSource.drawnUntil_succ]
  rfl

end Candidate

namespace Tree

/-- The walk of an import through the candidates, from a tree and a report to what becomes of
them. The identifiers of what is put into the container are among the drawn ones. -/
inductive Imports (target : Option PropertyId) (drawn : List PropertyId) :
    List Candidate → Tree → ImportReport → Tree → ImportReport → Prop
  | done (t : Tree) (report : ImportReport) : Imports target drawn [] t report t report
  | skip {c : Candidate} {cs : List Candidate} {t t' : Tree} {report report' : ImportReport}
    {existing : PropertyId} {reason : SkipReason}
    (obstacle : c.obstacle? (t.children target) = some (existing, reason))
    (rest : Imports target drawn cs t
      { report with skipped := report.skipped ++ [⟨c.id, c.name, reason, existing⟩] }
      t' report') :
    Imports target drawn (c :: cs) t report t' report'
  | take {c : Candidate} {cs : List Candidate} {t placed next t' : Tree}
    {report report' : ImportReport} {s : IdSource}
    (free : c.obstacle? (t.children target) = none)
    (ids : (c.property s).ids ⊆ drawn)
    (place : t.place? target (c.property s) = some placed)
    (same : next.roots = placed.roots)
    (rest : Imports target drawn cs next
      { report with imported := report.imported ++ [(c.property s).id] } t' report') :
    Imports target drawn (c :: cs) t report t' report'

variable {t t' : Tree} {s s' : IdSource} {target : Option PropertyId} {cs : List Candidate}
  {report report' : ImportReport} {drawn : List PropertyId}

theorem imports_of_importEach (container : t.Accepts target)
    (h : importEach target cs t s report = (.ok report', t', s')) (fresh : s.Fresh s' t.ids)
    (sub : s.drawnUntil s' ⊆ drawn) : Imports target drawn cs t report t' report' := by
  induction cs generalizing t s report with
  | nil =>
    cases h
    exact .done _ _
  | cons c cs ih =>
    cases obstacle : c.obstacle? (t.children target) with
    | some o =>
      rw [importEach] at h
      simp only [obstacle] at h
      exact .skip obstacle (ih container h fresh sub)
    | none =>
      obtain ⟨y, sound, -, step, placed⟩ :=
        importEach_accepted (s := s) container obstacle cs report
      rw [step] at h
      have later := importEach_sound h
      obtain ⟨first, rest⟩ := sound.fresh_split later fresh
      obtain ⟨source, placed, place, same⟩ := placed first
      obtain ⟨n, hn⟩ : ∃ n, s' = y.2.advance n := later.source
      have split := IdSource.drawnUntil_append s c.draws n
      rw [hn, source, IdSource.advance_advance, split] at sub
      refine .take obstacle (s := s) ?_ place same ?_
      · rw [c.ids_property]
        exact List.Subset.trans (List.subset_append_left _ _) sub
      · rw [c.id_property]
        refine ih ((container.place? place).congr same) h rest ?_
        rw [hn, source, IdSource.advance_advance]
        exact List.Subset.trans (List.subset_append_right _ _) sub

/-- Where as many draws as the candidates can take are new, an import into a container goes
through. -/
theorem importEach_goes_through (container : t.Accepts target) (report : ImportReport)
    (fresh : s.Fresh (s.advance (cs.map Candidate.draws).sum) t.ids) :
    ∃ t' s' report', importEach target cs t s report = (.ok report', t', s') ∧
      s.Fresh s' t.ids := by
  suffices ∃ t' report', ∃ n ≤ (cs.map Candidate.draws).sum,
      importEach target cs t s report = (.ok report', t', s.advance n) by
    obtain ⟨t', report', n, le, h⟩ := this
    obtain ⟨m, total⟩ := Nat.exists_eq_add_of_le le
    rw [total] at fresh
    exact ⟨t', s.advance n, report', h, fresh.split.1⟩
  induction cs generalizing t s report with
  | nil => exact ⟨t, report, 0, le_rfl, rfl⟩
  | cons c cs ih =>
    rw [List.map_cons, List.sum_cons] at fresh ⊢
    cases obstacle : c.obstacle? (t.children target) with
    | some o =>
      rw [Nat.add_comm] at fresh
      obtain ⟨t', report', n, le, h⟩ := ih container _ fresh.split.1
      exact ⟨t', report', n, by omega, by rw [importEach]; simp only [obstacle]; exact h⟩
    | none =>
      obtain ⟨y, sound, ⟨n, le, source⟩, step, placed⟩ :=
        importEach_accepted (s := s) container obstacle cs report
      have first : s.Fresh y.2 t.ids := by
        obtain ⟨m, total⟩ := Nat.exists_eq_add_of_le
          (le.trans (Nat.le_add_right c.draws (cs.map Candidate.draws).sum))
        rw [total] at fresh
        rw [source]
        exact fresh.split.1
      obtain ⟨source, placed, place, same⟩ := placed first
      have rest := fresh.split.2
      rw [← IdSource.advance_advance, ← source] at rest
      obtain ⟨t', report', m, le, h⟩ := ih ((container.place? place).congr same) _
        (rest.mono sound.ids.subset)
      refine ⟨t', report', c.draws + m, by omega, ?_⟩
      rw [step, h, source, IdSource.advance_advance]

namespace Imports

/-- The container keeps its children and takes the new ones behind them, each made of one of the
candidates. -/
theorem children (h : Imports target drawn cs t report t' report') :
    ∃ added, t'.children target = t.children target ++ added ∧
      report'.imported = report.imported ++ added.map Property.id ∧
      ∃ taken, taken.Sublist cs ∧
        List.Forall₂ (fun c q => q.decl.source = some c.id) taken added := by
  induction h with
  | done t report => exact ⟨[], by simp, by simp, [], .slnil, .nil⟩
  | skip obstacle _ ih =>
    obtain ⟨added, children, imported, taken, sub, made⟩ := ih
    exact ⟨added, children, imported, taken, sub.cons _, made⟩
  | @take c cs t placed next t' report report' s free ids place same _ ih =>
    obtain ⟨added, children, imported, taken, sub, made⟩ := ih
    refine ⟨c.property s :: added, ?_, ?_, c :: taken, sub.cons_cons c,
      .cons (c.source_property s) made⟩
    · simp [children, children_congr same target, children_place? place]
    · simp [imported]

theorem skipped (h : Imports target drawn cs t report t' report') {entry : String} {p : Property}
    (present : (t.children target).find? (fun q => q.decl.source == some entry) = some p) :
    report'.skipped.filter (·.candidateId == entry) =
      report.skipped.filter (·.candidateId == entry) ++
        (cs.filter (·.id == entry)).map fun c => ⟨c.id, c.name, .alreadyImported, p.id⟩ := by
  induction h with
  | done t report => simp
  | @skip c cs t t' report report' existing reason obstacle _ ih =>
    rw [ih present]
    by_cases same : c.id = entry
    · subst same
      simp only [Candidate.obstacle?, present, Option.some.injEq, Prod.mk.injEq] at obstacle
      obtain ⟨rfl, rfl⟩ := obstacle
      simp
    · simp [same]
  | @take c cs t placed next t' report report' s free ids place same _ ih =>
    have other : c.id ≠ entry := by
      rintro rfl
      simp [Candidate.obstacle?, present] at free
    rw [ih]
    · simp [other]
    · rw [children_congr same target, children_place? place, List.find?_append, present]
      rfl

end Imports
end Tree
end CredentialSchema

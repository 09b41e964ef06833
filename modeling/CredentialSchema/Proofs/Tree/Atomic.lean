import CredentialSchema.Proofs.Tree.Run
import CredentialSchema.Proofs.Vocabulary.Steps

/-!
Calls in place. `Edit.answer` is what the caller of an operation is told, and `Edit.leaves` is the
tree with the source as they are when the call ends. An import is the only operation of several
steps, and a refusal on the way would leave whatever was put in before it. None comes after the
first candidate: a container stays one as long as the draws are new. The revision counts every
change and nothing else.
-/
namespace CredentialSchema.Tree

/-- What the caller of an operation is told. -/
inductive Answer
  | refused (v : Violation)
  /-- What the call is about is not there, or stands at the boundary already. -/
  | idle
  | applied
  | imported (report : ImportReport)
deriving DecidableEq

def Answer.ofOption : Option α → Answer
  | none => .idle
  | some _ => .applied

def Answer.ofExcept : Except Violation (Option α) → Answer
  | .error v => .refused v
  | .ok r => ofOption r

namespace Edit

def answer : Edit → Tree × IdSource → Answer
  | .add parent, (t, s) => .ofExcept (t.add (s.ahead 0) parent)
  | .delete id, (t, _) => .ofOption (t.delete? id)
  | .move id dir, (t, _) => .ofOption (t.move? id dir)
  | .update id u, (t, _) => .ofOption (t.update? id u)
  | .setElement id kind, (t, s) => .ofExcept (t.setElement (s.ahead 0) id kind)
  | .importInto target cs, (t, s) =>
    match (t.importInto target cs s).1 with
    | .error v => .refused v
    | .ok none => .idle
    | .ok (some report) => .imported report

/-- The tree and the source when the call ends, however it ends. -/
def leaves : Edit → Tree × IdSource → Tree × IdSource
  | .importInto target cs, (t, s) => (t.importInto target cs s).2
  | e, x => e.perform x

/-- Whatever an import may draw is new to the tree. -/
def DrawsNew (e : Edit) (x : Tree × IdSource) : Prop :=
  ∀ target cs, e = .importInto target cs →
    x.2.Fresh (x.2.advance (cs.map Candidate.draws).sum) x.1.ids

end Edit

variable {t t' : Tree} {s s' : IdSource} {target : Option PropertyId} {cs : List Candidate}
  {report : ImportReport}

theorem revision_le_getD_modify? (t : Tree) (id : PropertyId) (f : Property → Property) :
    t.revision ≤ ((t.modify? id f).getD t).revision := by
  cases h : t.modify? id f with
  | none => exact Nat.le_refl _
  | some t' =>
    have step := modify?_revision h
    rw [Option.getD_some]
    omega

theorem revision_le_applyShape (c : Candidate) (shape : Shape) (t : Tree) (id : PropertyId)
    (s : IdSource) : t.revision ≤ (t.applyShape c shape id s).1.revision := by
  induction shape generalizing t id s with
  | scalar kind format =>
    rw [applyShape]
    split
    · exact Nat.le_refl _
    · exact revision_le_getD_modify? t id _
  | listOf element ih =>
    rw [applyShape]
    split
    · next elementId t' given =>
      have step := setElement_revision given
      have below := ih t' elementId (s.advance 1)
      omega
    · exact Nat.le_refl _

theorem revision_le_populate (c : Candidate) (t : Tree) (id : PropertyId) (s : IdSource) :
    t.revision ≤ (t.populate c id s).1.revision := by
  rw [populate]
  exact (revision_le_getD_modify? t id _).trans
    ((revision_le_getD_modify? _ id _).trans (revision_le_applyShape c _ _ id s))

theorem revision_lt_populate {fresh id : PropertyId} {added : Tree}
    (h : t.add fresh target = .ok (some (id, added))) (c : Candidate) (s : IdSource) :
    t.revision < (added.populate c id s).1.revision :=
  Nat.lt_of_lt_of_le (by rw [add_revision h]; exact Nat.lt_succ_self _)
    (revision_le_populate c added id s)

/-- An import that began with a tree and a report has ended. It left the tree and the reported
properties as they were, or it made changes that the revision counts and, unless it was refused,
reports more. -/
def Counts (t : Tree) (report : ImportReport)
    (ended : Except Violation ImportReport × Tree × IdSource) : Prop :=
  ended.2.1 = t ∧ (∀ r, ended.1 = .ok r → r.imported = report.imported) ∨
    t.revision < ended.2.1.revision ∧
      ∀ r, ended.1 = .ok r → report.imported.length < r.imported.length

theorem importEach_counts (target : Option PropertyId) (cs : List Candidate) (t : Tree)
    (s : IdSource) (report : ImportReport) :
    Counts t report (importEach target cs t s report) := by
  induction cs generalizing t s report with
  | nil =>
    refine .inl ⟨rfl, fun r ended => ?_⟩
    cases ended
    rfl
  | cons c cs ih =>
    rw [importEach]
    split
    · exact ih t s _
    · split
      · refine .inl ⟨rfl, fun r ended => ?_⟩
        cases ended
      · exact ih t s report
      · next id added hadd =>
        have first := revision_lt_populate hadd c (s.advance 1)
        rcases ih (added.populate c id (s.advance 1)).1 (added.populate c id (s.advance 1)).2
            { report with imported := report.imported ++ [id] } with
          ⟨same, reported⟩ | ⟨later, reported⟩
        · refine .inr ⟨lt_of_lt_of_eq first (congrArg revision same.symm), fun r ended => ?_⟩
          simp [reported r ended]
        · refine .inr ⟨first.trans later, fun r ended => ?_⟩
          have more := reported r ended
          rw [List.length_append, List.length_singleton] at more
          omega

theorem importInto_counts (target : Option PropertyId) (cs : List Candidate) (t : Tree)
    (s : IdSource) : (t.importInto target cs s).2.1 = t ∨
      t.revision < (t.importInto target cs s).2.1.revision := by
  by_cases container : t.Accepts target
  · rw [importInto_of_accepts container]
    exact (importEach_counts target cs t s {}).imp And.left And.left
  · rw [(importInto_of_not_accepts container cs s).1]
    exact .inl rfl

theorem importInto_reports (h : (t.importInto target cs s).1 = .ok (some report)) :
    report.imported = [] ∧ (t.importInto target cs s).2.1 = t ∨
      report.imported ≠ [] ∧ t.revision < (t.importInto target cs s).2.1.revision := by
  rcases run : t.importInto target cs s with ⟨outcome, t', s'⟩
  obtain rfl : outcome = .ok (some report) := by rw [← h, run]
  have through : t.import? target cs s = .ok (some (t', s', report)) := by
    rw [import?, run]
    rfl
  have counts := importEach_counts target cs t s {}
  rw [importEach_of_import? through] at counts
  rcases counts with ⟨same, reported⟩ | ⟨later, reported⟩
  · exact .inl ⟨reported report rfl, same⟩
  · exact .inr ⟨List.ne_nil_of_length_pos (reported report rfl), later⟩

theorem not_accepts_of_missing (h : (t.importInto target cs s).1 = .ok none) :
    ¬ t.Accepts target := by
  intro container
  rw [importInto_of_accepts container] at h
  rcases run : (importEach target cs t s {}).1 with v | done <;> simp [run, Except.map] at h

theorem not_accepts_of_refused {v : Violation} (h : (t.importInto target cs s).1 = .error v)
    (fresh : s.Fresh (s.advance (cs.map Candidate.draws).sum) t.ids) : ¬ t.Accepts target := by
  intro container
  obtain ⟨t', s', report', through, -⟩ := importEach_goes_through container {} fresh
  rw [importInto_of_accepts container, through] at h
  cases h

theorem single_step (e : Edit) (x : Tree × IdSource)
    (single : ∀ target cs, e ≠ .importInto target cs) :
    e.answer x = .applied ∧ (e.leaves x).1.revision = x.1.revision + 1 ∨
      ((∃ v, e.answer x = .refused v) ∨ e.answer x = .idle) ∧ e.leaves x = x := by
  obtain ⟨t, s⟩ := x
  cases e with
  | add parent =>
    rcases h : t.add (s.ahead 0) parent with v | _ | ⟨id, t'⟩
    · simp [Edit.answer, Edit.leaves, Edit.perform, h, Answer.ofExcept]
    · simp [Edit.answer, Edit.leaves, Edit.perform, h, Answer.ofExcept, Answer.ofOption]
    · simpa [Edit.answer, Edit.leaves, Edit.perform, h, Answer.ofExcept, Answer.ofOption]
        using add_revision h
  | delete id =>
    rcases h : t.delete? id with _ | ⟨gone, t'⟩
    · simp [Edit.answer, Edit.leaves, Edit.perform, h, Answer.ofOption]
    · simpa [Edit.answer, Edit.leaves, Edit.perform, h, Answer.ofOption] using delete?_revision h
  | move id dir =>
    rcases h : t.move? id dir with _ | t'
    · simp [Edit.answer, Edit.leaves, Edit.perform, h, Answer.ofOption]
    · simpa [Edit.answer, Edit.leaves, Edit.perform, h, Answer.ofOption] using move?_revision h
  | update id u =>
    rcases h : t.update? id u with _ | t'
    · simp [Edit.answer, Edit.leaves, Edit.perform, h, Answer.ofOption]
    · simpa [Edit.answer, Edit.leaves, Edit.perform, h, Answer.ofOption] using modify?_revision h
  | setElement id kind =>
    rcases h : t.setElement (s.ahead 0) id kind with v | _ | ⟨elementId, t'⟩
    · simp [Edit.answer, Edit.leaves, Edit.perform, h, Answer.ofExcept]
    · simp [Edit.answer, Edit.leaves, Edit.perform, h, Answer.ofExcept, Answer.ofOption]
    · simpa [Edit.answer, Edit.leaves, Edit.perform, h, Answer.ofExcept, Answer.ofOption]
        using setElement_revision h
  | importInto target cs => exact absurd rfl (single target cs)

/-- Every call leaves the tree as it was, content and revision, or counts what it did. A single step
that is refused or finds nothing to do changes nothing, and any other counts one. As long as what it
may draw is new, an import that is refused or finds no container has put in no candidate; one that
goes through leaves the revision exactly if it reports no property, and the content too. -/
theorem call_atomic (e : Edit) (x : Tree × IdSource) :
    (∀ v, e.answer x = .refused v → e.DrawsNew x → (e.leaves x).1 = x.1) ∧
      (e.answer x = .idle → (e.leaves x).1 = x.1) ∧
      (e.answer x = .applied → (e.leaves x).1.revision = x.1.revision + 1) ∧
      (∀ report, e.answer x = .imported report →
        ((e.leaves x).1.revision = x.1.revision ↔ report.imported = []) ∧
          (report.imported = [] → (e.leaves x).1 = x.1)) ∧
      ((e.leaves x).1.roots ≠ x.1.roots → x.1.revision < (e.leaves x).1.revision) := by
  by_cases imports : ∃ target cs, e = .importInto target cs
  · obtain ⟨target, cs, rfl⟩ := imports
    obtain ⟨t, s⟩ := x
    have changed : (t.importInto target cs s).2.1.roots ≠ t.roots →
        t.revision < (t.importInto target cs s).2.1.revision := fun different =>
      (importInto_counts target cs t s).resolve_left fun same => different (by rw [same])
    simp only [Edit.answer, Edit.leaves]
    rcases h : (t.importInto target cs s).1 with v | _ | report
    · refine ⟨fun _ _ fresh => ?_, nofun, nofun, nofun, changed⟩
      have closed := not_accepts_of_refused h (fresh target cs rfl)
      rw [(importInto_of_not_accepts closed cs s).1]
    · refine ⟨nofun, fun _ => ?_, nofun, nofun, changed⟩
      rw [(importInto_of_not_accepts (not_accepts_of_missing h) cs s).1]
    · refine ⟨nofun, nofun, nofun, ?_, changed⟩
      rintro _ ⟨⟩
      rcases importInto_reports h with ⟨nothing, same⟩ | ⟨something, later⟩
      · simp [nothing, same]
      · have moved := Nat.ne_of_gt later
        exact ⟨⟨fun same => absurd same moved, fun nothing => absurd nothing something⟩,
          fun nothing => absurd nothing something⟩
  · have single : ∀ target cs, e ≠ .importInto target cs := fun target cs same =>
      imports ⟨target, cs, same⟩
    rcases single_step e x single with ⟨applied, counted⟩ | ⟨refused | idle, same⟩
    · rw [applied]
      refine ⟨nofun, nofun, fun _ => counted, nofun, fun _ => ?_⟩
      rw [counted]
      exact Nat.lt_succ_self _
    · obtain ⟨v, refused⟩ := refused
      rw [refused, same]
      exact ⟨fun _ _ _ => rfl, nofun, nofun, nofun, fun different => absurd rfl different⟩
    · rw [idle, same]
      exact ⟨nofun, fun _ => rfl, nofun, nofun, fun different => absurd rfl different⟩

theorem call_atomic_import_into_text : ∃ x : Tree × IdSource, ∃ e : Edit,
    x.1.size = 1 ∧ (∃ v, e.answer x = .refused v) ∧ e.DrawsNew x ∧ (e.leaves x).1 = x.1 := by
  let source : IdSource := ⟨Uuid.numbered, 0⟩
  let dates : Candidate := { id := "dates", name := "dates", valueType := "date[]" }
  let x := Edit.perform (.add none) (empty, source)
  let e : Edit := .importInto (some (source.ahead 0)) [dates]
  have refused : e.answer x = .refused (.notAnObject (source.ahead 0) .string) := by
    decide +kernel
  have drawsNew : Edit.DrawsNew (.importInto (some (source.ahead 0)) [dates]) x := by
    rintro _ _ ⟨⟩
    decide +kernel
  exact ⟨x, e, by decide +kernel, ⟨_, refused⟩, drawsNew, (call_atomic e x).1 _ refused drawsNew⟩

end CredentialSchema.Tree

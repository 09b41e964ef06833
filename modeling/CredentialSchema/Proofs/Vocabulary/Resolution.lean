import CredentialSchema.Proofs.Property.Focus
import CredentialSchema.Proofs.Vocabulary.Once

/-!
What an import comes to. `Resolves` goes through the candidates with nothing in hand but the
siblings: a candidate that none of them keeps out becomes the next of them, and any other is passed
over for the first that does. An import adds just these properties to its container and changes
nothing else, and a second one passes over every candidate.
-/
namespace CredentialSchema

open Property (Splice Focus)

namespace Candidate

/-- None of the siblings comes from the candidate's entry, and none has its name, if it has one. -/
def Free (c : Candidate) (siblings : List Property) : Prop :=
  ∀ p ∈ siblings, p.decl.source ≠ some c.id ∧ (c.name ≠ "" → p.name ≠ c.name)

/-- The sibling that keeps a candidate out: the first from its entry, or without one the first of
its name. -/
inductive Blocked (c : Candidate) (siblings : List Property) : Property → SkipReason → Prop
  | entry {before after : List Property} {p : Property} (here : siblings = before ++ p :: after)
    (source : p.decl.source = some c.id) (first : ∀ q ∈ before, q.decl.source ≠ some c.id) :
    Blocked c siblings p .alreadyImported
  | name {before after : List Property} {p : Property} (here : siblings = before ++ p :: after)
    (named : c.name ≠ "") (same : p.name = c.name) (first : ∀ q ∈ before, q.name ≠ c.name)
    (unrecorded : ∀ q ∈ siblings, q.decl.source ≠ some c.id) : Blocked c siblings p .nameTaken

variable {c : Candidate} {siblings : List Property}

theorem obstacle?_eq_none_iff : c.obstacle? siblings = none ↔ c.Free siblings := by
  rw [obstacle?, Free]
  cases recorded : siblings.find? fun p => p.decl.source == some c.id with
  | some p =>
    have source := List.find?_some recorded
    have mem := List.mem_of_find?_eq_some recorded
    simp only [reduceCtorEq, false_iff]
    exact fun free => (free p mem).1 (beq_iff_eq.1 source)
  | none =>
    simp only [List.find?_eq_none, beq_iff_eq] at recorded
    simp only [Option.map_eq_none_iff, List.find?_eq_none, Bool.and_eq_true, bne_iff_ne,
      beq_iff_eq, not_and]
    exact ⟨fun free p mem => ⟨recorded p mem, free p mem⟩, fun free p mem => (free p mem).2⟩

theorem blocked_of_obstacle? {existing : PropertyId} {reason : SkipReason}
    (h : c.obstacle? siblings = some (existing, reason)) :
    ∃ p, c.Blocked siblings p reason ∧ existing = p.id := by
  rw [obstacle?] at h
  cases recorded : siblings.find? fun p => p.decl.source == some c.id with
  | some p =>
    simp only [recorded, Option.some.injEq, Prod.mk.injEq] at h
    obtain ⟨rfl, rfl⟩ := h
    obtain ⟨source, before, after, here, first⟩ := List.find?_eq_some_iff_append.1 recorded
    exact ⟨p, .entry here (beq_iff_eq.1 source) (by simpa using first), rfl⟩
  | none =>
    simp only [recorded, Option.map_eq_some_iff, Prod.mk.injEq] at h
    obtain ⟨p, named, rfl, rfl⟩ := h
    obtain ⟨same, before, after, here, first⟩ := List.find?_eq_some_iff_append.1 named
    simp only [Bool.and_eq_true, bne_iff_ne, beq_iff_eq] at same
    refine ⟨p, .name here same.1 same.2 ?_ ?_, rfl⟩
    · simpa [same.1] using first
    · simpa using recorded

theorem Blocked.mem {p : Property} {reason : SkipReason} (h : c.Blocked siblings p reason) :
    p ∈ siblings := by
  cases h with
  | entry here | name here =>
    rw [here]
    simp

theorem Blocked.not_free {p : Property} {reason : SkipReason} (h : c.Blocked siblings p reason) :
    ¬ c.Free siblings := by
  intro free
  obtain ⟨unrecorded, other⟩ := free p h.mem
  cases h with
  | entry _ source _ => exact unrecorded source
  | name _ named same _ _ => exact other named same

theorem Free.of_append {others : List Property} (h : c.Free (siblings ++ others)) :
    c.Free siblings :=
  fun p mem => h p (List.mem_append_left _ mem)

/-- The constraints that a candidate's innermost level has: those given, with the format that the
value type implies unless they name one, and none where that leaves nothing set. -/
structure Limits (c : Candidate) (format : Option String) (constraints : Option Constraints) :
    Prop where
  fields : constraints.getD {} = { (c.constraints.getD {}) with
    format := (c.constraints.bind Constraints.format).or format }
  set : constraints ≠ some {}

/-- A declaration has this name and declares nothing else but its kind and its constraints. -/
def Bare (name : String) (d : Declaration) : Prop :=
  d = { id := d.id, name, kind := d.kind, constraints := d.constraints }

/-- A property has the levels of a shape: an array for each list, with an element definition of the
candidate's name, and the candidate's constraints on what is inside of all arrays. -/
inductive Levels (c : Candidate) : Shape → Property → Prop
  | scalar {kind : Kind} {format : Option String} {d : Declaration} (isKind : d.kind = kind)
    (limits : c.Limits format d.constraints) : Levels c (.scalar kind format) ⟨d, [], none⟩
  | listOf {element : Shape} {d : Declaration} {p : Property} (isArray : d.kind = .array)
    (unlimited : d.constraints = none) (bare : Bare c.name p.decl) (below : Levels c element p) :
    Levels c (.listOf element) ⟨d, [], some p⟩

/-- A property is what its candidate says, with the catalogue entry recorded. -/
structure Becomes (c : Candidate) (p : Property) : Prop where
  name : p.name = c.name
  displayName : p.decl.displayName = c.displayName
  description : p.decl.description = c.description
  source : p.decl.source = some c.id
  optional : p.decl.required = false
  levels : c.Levels (ValueType.shape c.valueType) p

theorem limits_mergedConstraints (c : Candidate) (format : Option String) :
    c.Limits format
      (if (c.mergedConstraints format).isEmpty then none
        else some (c.mergedConstraints format)) := by
  have given : (c.constraints.getD {}).format = c.constraints.bind Constraints.format := by
    cases c.constraints <;> rfl
  have merged : c.mergedConstraints format = { (c.constraints.getD {}) with
      format := (c.constraints.bind Constraints.format).or format } := by
    rw [mergedConstraints, given]
  by_cases unset : (c.mergedConstraints format).isEmpty
  · have nothing : c.mergedConstraints format = {} := by simpa [Constraints.isEmpty] using unset
    rw [if_pos unset]
    exact ⟨nothing.symm.trans merged, nofun⟩
  · rw [if_neg unset]
    refine ⟨merged, fun nothing => unset ?_⟩
    simpa [Constraints.isEmpty] using nothing

theorem levels_shaped (c : Candidate) (shape : Shape) {d : Declaration} (s : IdSource)
    (kind : d.kind = shape.kind) (name : d.name = c.name) (unlimited : d.constraints = none) :
    c.Levels shape (c.shaped shape d s) := by
  induction shape generalizing d s with
  | scalar k format =>
    have limits := c.limits_mergedConstraints format
    rw [shaped]
    by_cases unset : (c.mergedConstraints format).isEmpty
    · simp only [unset, if_true] at limits ⊢
      exact .scalar kind (unlimited ▸ limits)
    · simp only [unset, Bool.false_eq_true, if_false] at limits ⊢
      exact .scalar kind limits
  | listOf element ih =>
    let below : Declaration := { id := s.ahead 0, name := d.name, kind := element.kind }
    obtain ⟨constraints, decl⟩ := c.decl_shaped element below (s.advance 1)
    have bare : Bare c.name (c.shaped element below (s.advance 1)).decl := by
      rw [Bare, decl]
      simp only [below, name]
    exact .listOf kind unlimited bare (ih (s.advance 1) rfl name rfl)

theorem becomes_property (c : Candidate) (s : IdSource) : c.Becomes (c.property s) := by
  obtain ⟨constraints, decl⟩ :=
    c.decl_shaped (ValueType.shape c.valueType) (c.declaration (s.ahead 0)) (s.advance 1)
  constructor
  case name => exact congrArg Declaration.name decl
  case displayName => exact congrArg Declaration.displayName decl
  case description => exact congrArg Declaration.description decl
  case source => exact congrArg Declaration.source decl
  case optional => exact congrArg Declaration.required decl
  case levels => exact c.levels_shaped (ValueType.shape c.valueType) (s.advance 1) rfl rfl rfl

end Candidate

/-- What candidates come to among some siblings: the properties put in, in order, and a note of each
candidate passed over, in order. Every property put in is a sibling to the candidates after it. -/
inductive Resolves : List Property → List Candidate → List Property → List Skip → Prop
  | done (siblings : List Property) : Resolves siblings [] [] []
  | take {siblings added : List Property} {skipped : List Skip} {c : Candidate}
    {cs : List Candidate} {p : Property} (free : c.Free siblings) (becomes : c.Becomes p)
    (rest : Resolves (siblings ++ [p]) cs added skipped) :
    Resolves siblings (c :: cs) (p :: added) skipped
  | skip {siblings added : List Property} {skipped : List Skip} {c : Candidate}
    {cs : List Candidate} {p : Property} {reason : SkipReason}
    (blocked : c.Blocked siblings p reason) (rest : Resolves siblings cs added skipped) :
    Resolves siblings (c :: cs) added (⟨c.id, c.name, reason, p.id⟩ :: skipped)

theorem Resolves.not_free {siblings added : List Property} {skipped : List Skip}
    {cs : List Candidate} (h : Resolves siblings cs added skipped) :
    ∀ c ∈ cs, ¬ c.Free (siblings ++ added) := by
  induction h with
  | done siblings => simp
  | @take siblings added skipped c cs p _ becomes _ ih =>
    simp only [List.append_assoc, List.singleton_append] at ih
    rw [List.forall_mem_cons]
    refine ⟨fun free => (free p (by simp)).1 becomes.source, ih⟩
  | skip blocked _ ih =>
    rw [List.forall_mem_cons]
    exact ⟨fun free => blocked.not_free free.of_append, ih⟩

namespace Tree

variable {t t' : Tree} {s s' : IdSource} {target : Option PropertyId} {cs : List Candidate}
  {report report' : ImportReport} {drawn : List PropertyId}

/-- The forest around the children of a container. -/
structure Around (target : Option PropertyId) (forest : List Property → List Property) : Prop where
  children : ∀ {t : Tree} {ms : List Property}, t.roots = forest ms → t.children target = ms
  place : ∀ {t t' : Tree} {ms : List Property} {q : Property}, t.roots = forest ms →
    t.place? target q = some t' → t'.roots = forest (ms ++ [q])
  splice : ∀ ms added, Splice [] added (forest ms) (forest (ms ++ added))

theorem exists_around (container : t.Accepts target) :
    ∃ forest, Around target forest ∧ t.roots = forest (t.children target) := by
  have behind (ms added : List Property) : Splice [] added ms (ms ++ added) := by
    simpa using @Splice.here [] added ms []
  cases target with
  | none =>
    refine ⟨fun ms => ms, ⟨fun same => same, ?_, behind⟩, rfl⟩
    rintro t t' ms q rfl placed
    obtain rfl := Option.some.inj placed
    rfl
  | some id =>
    obtain ⟨⟨d, ms, e⟩, found, -⟩ := container
    obtain ⟨forest, same, focus⟩ := Property.exists_focus_of_findInList? found
    obtain rfl : d.id = id := (Property.mem_subtreeOfList_of_find? found).2
    refine ⟨fun ms => forest ⟨d, ms, e⟩, ⟨?_, ?_, ?_⟩, ?_⟩
    · intro t ms same
      have here := @find?_of_reaches forest t ⟨d, ms, e⟩ same focus.reaches
      simp only [children, show t.find? d.id = _ from here, Option.map_some, Option.getD_some]
    · intro t t' ms q same placed
      have modified := @modify?_of_reaches forest t (Property.withMember q) ⟨d, ms, e⟩ same
        focus.reaches
      obtain rfl := Option.some.inj (modified.symm.trans placed)
      rfl
    · exact fun ms added => focus.splice (.inMembers [] [] d e (behind ms added))
    · simpa [children, found] using same

/-- The walk of an import resolves its candidates among the children of the container, and puts
what they become behind them. -/
theorem Imports.resolves {forest : List Property → List Property} (around : Around target forest)
    (h : Imports target drawn cs t report t' report') {siblings : List Property}
    (here : t.roots = forest siblings) :
    ∃ added skipped, t'.roots = forest (siblings ++ added) ∧
      report' = ⟨report.imported ++ added.map Property.id, report.skipped ++ skipped⟩ ∧
      Resolves siblings cs added skipped := by
  induction h generalizing siblings with
  | done t report => exact ⟨[], [], by simp [here], by simp, .done siblings⟩
  | @skip c cs t t' report report' existing reason obstacle _ ih =>
    rw [around.children here] at obstacle
    obtain ⟨p, blocked, rfl⟩ := Candidate.blocked_of_obstacle? obstacle
    obtain ⟨added, skipped, roots, rfl, rest⟩ := ih here
    exact ⟨added, _, roots, by simp, .skip blocked rest⟩
  | @take c cs t placed next t' report report' s free ids place same _ ih =>
    rw [around.children here] at free
    have behind : next.roots = forest (siblings ++ [c.property s]) := same.trans
      (around.place here place)
    obtain ⟨added, skipped, roots, rfl, rest⟩ := ih behind
    refine ⟨c.property s :: added, skipped, by simp [roots], by simp, ?_⟩
    exact .take (Candidate.obstacle?_eq_none_iff.1 free) (c.becomes_property s) rest

theorem Imports.accepts (h : Imports target drawn cs t report t' report')
    (container : t.Accepts target) : t'.Accepts target := by
  induction h with
  | done t report => exact container
  | skip obstacle _ ih => exact ih container
  | take free ids place same _ ih => exact ih ((container.place? place).congr same)

theorem resolves_of_import? (h : t.import? target cs s = .ok (some (t', s', report)))
    (fresh : s.Fresh s' t.ids) :
    ∃ added, t'.children target = t.children target ++ added ∧
      Splice [] added t.roots t'.roots ∧ report.imported = added.map Property.id ∧
      Resolves (t.children target) cs added report.skipped := by
  obtain ⟨forest, around, here⟩ := exists_around (accepts_of_import? h)
  obtain ⟨added, skipped, roots, rfl, resolves⟩ :=
    (imports_of_import? h fresh).resolves around here
  refine ⟨added, around.children roots, ?_, by simp, by simpa using resolves⟩
  rw [here, roots]
  exact around.splice _ added

/-- An import into a container goes through. It resolves the candidates one after the other among
the children that are there at their turn, puts what they become behind those that were there, with
identifiers of their own, and changes nothing else. -/
theorem import_resolves (distinct : t.ids.Nodup) (container : t.Accepts target)
    (fresh : s.Fresh (s.advance (cs.map Candidate.draws).sum) t.ids) :
    ∃ t' s' report added, t.import? target cs s = .ok (some (t', s', report)) ∧
      t'.children target = t.children target ++ added ∧
      Splice [] added t.roots t'.roots ∧ t'.ids.Nodup ∧
      report.imported = added.map Property.id ∧
      Resolves (t.children target) cs added report.skipped := by
  obtain ⟨t', s', report, imported, drawn⟩ := import?_goes_through (x := (t, s)) container cs fresh
  obtain ⟨added, children, splice, ids, resolves⟩ := resolves_of_import? imported drawn
  exact ⟨t', s', report, added, imported, children, splice,
    (import?_sound imported).nodup drawn distinct, ids, resolves⟩

/-- Five candidates under an object with one child: a list of dates, once more, another entry of the
same name, an entry of the child's name, and a price with an implied format. -/
theorem import_resolves_dates_and_price :
    let name : Declaration := { id := ⟨Uuid.numbered 1⟩, name := "name", kind := .string }
    let object : Declaration := { id := ⟨Uuid.numbered 0⟩, name := "person", kind := .object }
    let t : Tree := ⟨[⟨object, [⟨name, [], none⟩], none⟩], 0⟩
    let cs : List Candidate := [{ id := "vp-1", name := "dates", valueType := "date[]" },
      { id := "vp-1", name := "again", valueType := "string" },
      { id := "vp-2", name := "dates", valueType := "string" },
      { id := "vp-3", name := "name", valueType := "string" },
      { id := "vp-4", name := "", valueType := "date-time", constraints := some {} }]
    let report : ImportReport := {
      imported := [⟨Uuid.numbered 2⟩, ⟨Uuid.numbered 4⟩]
      skipped := [⟨"vp-1", "again", .alreadyImported, ⟨Uuid.numbered 2⟩⟩,
        ⟨"vp-2", "dates", .nameTaken, ⟨Uuid.numbered 2⟩⟩, ⟨"vp-3", "name", .nameTaken, name.id⟩] }
    ∃ t' s' added, t.import? (some object.id) cs ⟨Uuid.numbered, 2⟩ =
        .ok (some (t', s', report)) ∧
      t'.children (some object.id) = ⟨name, [], none⟩ :: added ∧
      report.imported = added.map Property.id ∧
      Resolves [⟨name, [], none⟩] cs added report.skipped := by
  intro name object t cs report
  have container : t.Accepts (some object.id) :=
    ⟨⟨object, [⟨name, [], none⟩], none⟩, by decide +kernel, rfl⟩
  obtain ⟨t', s', report', added, imported, children, -, -, ids, resolves⟩ :=
    @import_resolves t ⟨Uuid.numbered, 2⟩ (some object.id) cs (by decide +kernel) container
      (by decide +kernel)
  have before : t.children (some object.id) = [⟨name, [], none⟩] := by decide +kernel
  have reported : (t.import? (some object.id) cs ⟨Uuid.numbered, 2⟩).toOption.join.map
      (fun r => r.2.2) = some report := by decide +kernel
  rw [imported] at reported
  obtain rfl : report' = report := Option.some.inj reported
  rw [before] at children resolves
  exact ⟨t', s', added, imported, children, ids, resolves⟩

theorem importEach_of_not_free (taken : ∀ c ∈ cs, ¬ c.Free (t.children target)) (s : IdSource)
    (report : ImportReport) :
    ∃ skipped, importEach target cs t s report =
        (.ok { report with skipped := report.skipped ++ skipped }, t, s) ∧
      List.Forall₂ (fun c skip => skip.candidateId = c.id ∧ skip.name = c.name ∧
        ∃ p, c.Blocked (t.children target) p skip.reason ∧ skip.existing = p.id) cs skipped := by
  induction cs generalizing report with
  | nil => exact ⟨[], by simp [importEach], .nil⟩
  | cons c cs ih =>
    rw [List.forall_mem_cons, ← Candidate.obstacle?_eq_none_iff] at taken
    obtain ⟨⟨existing, reason⟩, obstacle⟩ := Option.ne_none_iff_exists'.1 taken.1
    obtain ⟨p, blocked, rfl⟩ := Candidate.blocked_of_obstacle? obstacle
    obtain ⟨skipped, rest, notes⟩ := ih taken.2
      { report with skipped := report.skipped ++ [⟨c.id, c.name, reason, p.id⟩] }
    refine ⟨⟨c.id, c.name, reason, p.id⟩ :: skipped, ?_, .cons ⟨rfl, rfl, p, blocked, rfl⟩ notes⟩
    rw [importEach]
    simp only [obstacle, rest, List.append_assoc, List.singleton_append]

/-- The same import once more finds every candidate taken: it passes over each in order for a child
of the container, draws no identifier and leaves the tree as it is, its revision included. -/
theorem import_again (imported : t.import? target cs s = .ok (some (t', s', report)))
    (fresh : s.Fresh s' t.ids) (later : IdSource) :
    ∃ skipped, t'.import? target cs later = .ok (some (t', later, ⟨[], skipped⟩)) ∧
      List.Forall₂ (fun c skip => skip.candidateId = c.id ∧ skip.name = c.name ∧
        ∃ p ∈ t'.children target, skip.existing = p.id) cs skipped := by
  obtain ⟨added, children, -, -, resolves⟩ := resolves_of_import? imported fresh
  have taken := resolves.not_free
  rw [← children] at taken
  have container : t'.Accepts target :=
    (imports_of_import? imported fresh).accepts (accepts_of_import? imported)
  obtain ⟨skipped, again, notes⟩ := importEach_of_not_free taken later {}
  refine ⟨skipped, ?_, notes.imp fun c skip note => ?_⟩
  · exact import?_of_importEach container again
  · obtain ⟨id, name, p, blocked, existing⟩ := note
    exact ⟨id, name, p, blocked.mem, existing⟩

/-- Two entries of one name at the top level, and one without a name or an identifier, twice. -/
theorem import_again_at_top_level :
    let cs : List Candidate := [{ id := "vp-1", name := "date", valueType := "date" },
      { id := "vp-2", name := "date", valueType := "string" },
      { id := "", name := "", valueType := "string[]" },
      { id := "", name := "", valueType := "string" }]
    let skipped : List Skip := [⟨"vp-1", "date", .alreadyImported, ⟨Uuid.numbered 0⟩⟩,
      ⟨"vp-2", "date", .nameTaken, ⟨Uuid.numbered 0⟩⟩,
      ⟨"", "", .alreadyImported, ⟨Uuid.numbered 1⟩⟩, ⟨"", "", .alreadyImported, ⟨Uuid.numbered 1⟩⟩]
    ∃ t' s', (∃ report, Tree.empty.import? none cs ⟨Uuid.numbered, 0⟩ =
        .ok (some (t', s', report))) ∧
      t'.import? none cs s' = .ok (some (t', s', ⟨[], skipped⟩)) ∧
      List.Forall₂ (fun c skip => skip.candidateId = c.id ∧ skip.name = c.name ∧
        ∃ p ∈ t'.children none, skip.existing = p.id) cs skipped := by
  intro cs skipped
  let first := Tree.empty.import? none cs ⟨Uuid.numbered, 0⟩
  have container : Tree.empty.Accepts none := trivial
  have goes := import?_goes_through (x := (Tree.empty, ⟨Uuid.numbered, 0⟩)) container cs
    (by decide +kernel)
  obtain ⟨t', s', report, imported, fresh⟩ := goes
  obtain ⟨notes, again, children⟩ := import_again imported fresh s'
  have second : (first.toOption.join.bind fun r =>
      (r.1.import? none cs r.2.1).toOption.join).map (fun r => r.2.2.skipped) = some skipped := by
    decide +kernel
  have both : first = .ok (some (t', s', report)) := imported
  rw [both] at second
  simp only [Except.toOption, Option.join_some, Option.bind_some, again, Option.map_some,
    Option.some.injEq] at second
  subst second
  exact ⟨t', s', ⟨report, imported⟩, again, children⟩

end Tree
end CredentialSchema

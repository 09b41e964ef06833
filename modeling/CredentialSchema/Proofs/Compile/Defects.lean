import CredentialSchema.Proofs.Command.Writes
import CredentialSchema.Proofs.Property.Everywhere

/-!
What the schema pass warns of. `defects` is the walk that the warnings report: children of an
object level in order, of which one whose name came before is named as a duplicate and not entered.
So it need not come to every defect, but a place that it passes by has a defect of its own: nothing
is warned of exactly if the whole tree is complete.
-/
namespace CredentialSchema.SchemaPass

open Property (Everywhere Legal)

mutual
/-- What is wrong below a property: with the children of an object, or in the element definition of
an array, which has to be there. -/
def defects : Property → List (PropertyId × Defect)
  | ⟨d, ms, e⟩ => match d.kind with
    | .object => levelDefects [] ms
    | .array => elementDefects d.id e
    | _ => []

/-- What is wrong with the children of an object level, behind siblings that came earlier. -/
def levelDefects (earlier : List Property) : List Property → List (PropertyId × Defect)
  | [] => []
  | p :: ps =>
    (if p.name = "" then [(p.id, .emptyName)] else []) ++
      (if ∃ q ∈ earlier, q.name = p.name then [(p.id, .duplicateName)] else defects p) ++
      levelDefects (earlier ++ [p]) ps

def elementDefects (array : PropertyId) : Option Property → List (PropertyId × Defect)
  | none => [(array, .missingElement)]
  | some p => defects p
end

/-- What a warning is about, apart from where it is. -/
def mark (w : Warning) : PropertyId × Defect := (w.id, w.defect)

/-- Children of one level that their names tell apart. -/
structure ToldApart (ps : List Property) : Prop where
  named : ∀ p ∈ ps, p.name ≠ ""
  distinct : (ps.map Property.name).Nodup

/-- A property with nothing wrong directly below it. -/
structure Whole (p : Property) : Prop where
  members : p.kind = .object → ToldApart p.members
  element : p.kind = .array → p.element ≠ none

/-- A forest with nothing wrong on any level. -/
structure Complete (ps : List Property) : Prop where
  top : ToldApart ps
  each : Everywhere Whole ps

variable (extra : Bool)

theorem exists_name_snoc (earlier : List Property) (p : Property) (name : String) :
    (∃ q ∈ earlier ++ [p], q.name = name) ↔ (∃ q ∈ earlier, q.name = name) ∨ p.name = name := by
  simp only [List.mem_append, List.mem_singleton, or_and_right, exists_or, exists_eq_left]

mutual
theorem mark_property (path : String) : ∀ p : Property,
    (property extra path p).2.map mark = defects p
  | ⟨d, ms, e⟩ => by
    rw [property, defects]
    cases d.kind with
    | object => exact mark_children path (by simp) ms
    | array => exact mark_element path d e
    | string | integer | number | boolean => rfl

theorem mark_children (path : String) {taken : List String} {earlier : List Property}
    (same : ∀ name, name ∈ taken ↔ ∃ q ∈ earlier, q.name = name) : ∀ ps : List Property,
    (children extra path taken ps).2.map mark = levelDefects earlier ps
  | [] => rfl
  | p :: ps => by
    have unnamed : (if p.name.isEmpty then [Warning.mk p.id (Warning.childPath path p.name)
        .emptyName] else []).map mark = if p.name = "" then [(p.id, .emptyName)] else [] := by
      by_cases empty : p.name = "" <;> simp [empty, mark]
    rw [children, levelDefects]
    by_cases repeated : p.name ∈ taken
    · have still (name : String) : name ∈ taken ↔ ∃ q ∈ earlier ++ [p], q.name = name := by
        rw [exists_name_snoc, ← same, iff_self_or]
        rintro rfl
        exact repeated
      have rest := mark_children path still ps
      simp only [List.contains_iff_mem, repeated, if_true, (same p.name).1 repeated,
        List.map_append, unnamed, List.map_cons, rest, List.append_assoc]
      rfl
    · have still (name : String) : name ∈ p.name :: taken ↔
          ∃ q ∈ earlier ++ [p], q.name = name := by
        rw [exists_name_snoc, ← same, List.mem_cons, or_comm, eq_comm]
      have rest := mark_children path still ps
      have inner := mark_property (Warning.childPath path p.name) p
      simp only [List.contains_iff_mem, repeated, if_false, mt (same p.name).2 repeated,
        List.map_append, unnamed, inner, rest]

theorem mark_element (path : String) (array : Declaration) : ∀ e : Option Property,
    (element extra path array e).2.map mark = elementDefects array.id e
  | none => rfl
  | some p => mark_property (Warning.elementPath path) p
end

theorem mark_compile (t : Tree) (m : Metadata) :
    (compile t m).warnings.map mark = levelDefects [] t.roots :=
  mark_children m.additionalProperties "" (by simp) t.roots

theorem levelDefects_eq_nil_iff (earlier ps : List Property) :
    levelDefects earlier ps = [] ↔
      (∀ p ∈ ps, p.name ≠ "" ∧ (¬ ∃ q ∈ earlier, q.name = p.name) ∧ defects p = []) ∧
        (ps.map Property.name).Nodup := by
  induction ps generalizing earlier with
  | nil => simp [levelDefects]
  | cons p ps ih =>
    have once : (¬ ∃ q ∈ ps, p.name = q.name) ↔ p.name ∉ ps.map Property.name := by
      simp only [List.mem_map, eq_comm]
    simp only [levelDefects, List.append_eq_nil_iff, ih, exists_name_snoc, List.forall_mem_cons,
      List.map_cons, List.nodup_cons, ← once, ite_eq_right_iff, reduceCtorEq, imp_false]
    constructor
    · rintro ⟨⟨named, here⟩, each, distinct⟩
      split at here
      · cases here
      · next first =>
        refine ⟨⟨⟨named, first, here⟩, fun q mem => ?_⟩, fun again => ?_, distinct⟩
        · obtain ⟨named, apart, quiet⟩ := each q mem
          exact ⟨named, fun before => apart (.inl before), quiet⟩
        · obtain ⟨q, mem, same⟩ := again
          exact (each q mem).2.1 (.inr same)
    · rintro ⟨⟨⟨named, first, here⟩, each⟩, once, distinct⟩
      refine ⟨⟨named, by rw [if_neg first, here]⟩, fun q mem => ?_, distinct⟩
      obtain ⟨named, apart, quiet⟩ := each q mem
      exact ⟨named, fun h => h.elim apart fun same => once ⟨q, mem, same⟩, quiet⟩

theorem levelDefects_nil_eq_nil_iff (ps : List Property) :
    levelDefects [] ps = [] ↔ ToldApart ps ∧ ∀ p ∈ ps, defects p = [] := by
  rw [levelDefects_eq_nil_iff]
  constructor
  · rintro ⟨each, distinct⟩
    exact ⟨⟨fun p mem => (each p mem).1, distinct⟩, fun p mem => (each p mem).2.2⟩
  · rintro ⟨⟨named, distinct⟩, quiet⟩
    exact ⟨fun p mem => ⟨named p mem, by simp, quiet p mem⟩, distinct⟩

theorem defects_eq_nil_iff (p : Property) (legal : Legal [p]) :
    defects p = [] ↔ Everywhere Whole [p] := by
  induction p using Property.induct with
  | node d ms e members element =>
    obtain ⟨⟨object, array⟩, legalMembers, legalElement, -⟩ :=
      (Property.legal_cons d ms e []).1 legal
    have below : (∀ p ∈ ms, defects p = []) ↔ Everywhere Whole ms := by
      rw [Property.everywhere_iff_each]
      exact forall₂_congr fun p mem => members p mem (Property.legal_of_mem legalMembers mem)
    simp only [Property.everywhere_cons, Property.everywhere_nil, and_true]
    cases kind : d.kind with
    | object =>
      have notArray : d.kind ≠ .array := by simp [kind]
      obtain rfl : e = none := by
        by_contra some
        exact notArray (array some)
      have whole : Whole ⟨d, ms, none⟩ ↔ ToldApart ms :=
        ⟨fun h => h.members kind, fun h => ⟨fun _ => h, fun isArray => absurd isArray notArray⟩⟩
      simp only [defects, kind, levelDefects_nil_eq_nil_iff, below, whole, Option.toList_none,
        Property.everywhere_nil, and_true]
    | array =>
      have notObject : d.kind ≠ .object := by simp [kind]
      obtain rfl : ms = [] := by
        by_contra some
        exact notObject (object some)
      have whole : Whole ⟨d, [], e⟩ ↔ e ≠ none :=
        ⟨fun h => h.element kind, fun h => ⟨fun isObject => absurd isObject notObject, fun _ => h⟩⟩
      cases e with
      | none => simp [defects, kind, elementDefects, whole]
      | some q =>
        have inner := element q rfl legalElement
        simp [defects, kind, elementDefects, whole, inner]
    | string | integer | number | boolean =>
      have notObject : d.kind ≠ .object := by simp [kind]
      have notArray : d.kind ≠ .array := by simp [kind]
      obtain rfl : ms = [] := by
        by_contra some
        exact notObject (object some)
      obtain rfl : e = none := by
        by_contra some
        exact notArray (array some)
      have whole : Whole ⟨d, [], none⟩ :=
        ⟨fun isObject => absurd isObject notObject, fun isArray => absurd isArray notArray⟩
      simp [defects, kind, whole]

theorem levelDefects_eq_nil_iff_complete {ps : List Property} (legal : Legal ps) :
    levelDefects [] ps = [] ↔ Complete ps := by
  have each : (∀ p ∈ ps, defects p = []) ↔ Everywhere Whole ps := by
    rw [Property.everywhere_iff_each]
    exact forall₂_congr fun p mem => defects_eq_nil_iff p (Property.legal_of_mem legal mem)
  rw [levelDefects_nil_eq_nil_iff, each]
  exact ⟨fun h => ⟨h.1, h.2⟩, fun h => ⟨h.top, h.each⟩⟩

theorem warnings_eq_nil_iff {t : Tree} (m : Metadata) (legal : Legal t.roots) :
    (compile t m).warnings = [] ↔ Complete t.roots := by
  rw [← levelDefects_eq_nil_iff_complete legal, ← mark_compile t m, List.map_eq_nil_iff]

/-- A compilation that warnings keep back ends as one that they do not keep back, unless there is
something to warn of. -/
theorem run_denyWarnings {c : CompileCommand} {w : World} {p : Project}
    (loaded : w.files.loadProject c.project = .ok p)
    (schema : c.mode.getD p.metadata.mode = .schema) :
    ((compile p.tree p.metadata).warnings = [] →
      { c with denyWarnings := true }.run w = { c with denyWarnings := false }.run w) ∧
    ((compile p.tree p.metadata).warnings ≠ [] →
      ({ c with denyWarnings := true }.run w).code = 1) := by
  have same (deny : Bool) :
      CompileCommand.namespaces { c with denyWarnings := deny } w = c.namespaces w := rfl
  simp only [CompileCommand.run, loaded, schema, same, World.attempt]
  cases compiled : p.compileChecked w.isPattern .schema (c.namespaces w) with
  | error e => simp [Except.mapError, World.fail]
  | ok a =>
    obtain ⟨rfl, -⟩ := Project.compileAs_of_compileChecked compiled
    have warnings : (p.compileAs .schema (c.namespaces w)).warnings =
      (compile p.tree p.metadata).warnings := rfl
    simp only [Except.mapError, warnings]
    refine ⟨fun quiet => ?_, fun loud => ?_⟩
    · simp only [quiet, List.isEmpty_nil, Bool.not_true, Bool.and_false]
      rfl
    · have some : (compile p.tree p.metadata).warnings.isEmpty = false := by simpa using loud
      simp only [some]
      split <;> rfl

/-- The warnings of the schema pass are those of the walk, and there are none exactly if on the top
level and in every object the names of the children are there and tell them apart, and every array
has an element definition. Warnings that are denied keep a compilation back otherwise, and never
then. -/
theorem warnings_exact (t : Tree) (m : Metadata) :
    (compile t m).warnings.map mark = levelDefects [] t.roots ∧
    (Legal t.roots → ((compile t m).warnings = [] ↔ Complete t.roots)) ∧
    ∀ (c : CompileCommand) (w : World) (p : Project), w.files.loadProject c.project = .ok p →
      c.mode.getD p.metadata.mode = .schema →
      (Complete p.tree.roots →
        { c with denyWarnings := true }.run w = { c with denyWarnings := false }.run w) ∧
      (¬ Complete p.tree.roots → ({ c with denyWarnings := true }.run w).code = 1) := by
  refine ⟨mark_compile t m, warnings_eq_nil_iff m, fun c w p loaded schema => ?_⟩
  obtain ⟨text, d, -, -, load⟩ := Files.exists_of_loadProject_eq_ok loaded
  have legal := (Project.load_cases load).1.legal
  rw [← warnings_eq_nil_iff p.metadata legal]
  exact run_denyWarnings loaded schema

/-- A duplicate hides the unnamed property that it holds, and is itself warned of. -/
theorem warnings_exact_hidden :
    let rooms : Property := ⟨{ id := ⟨.numbered 2⟩, name := "rooms", kind := .array }, [], none⟩
    let unnamed : Property := ⟨{ id := ⟨.numbered 4⟩, name := "" }, [], none⟩
    let home (n : Nat) (ms : List Property) : Property :=
      ⟨{ id := ⟨.numbered n⟩, name := "home", kind := .object }, ms, none⟩
    let p : Project := ⟨⟨.numbered 0⟩, {}, ⟨[home 1 [rooms], home 3 [unnamed]], 0⟩⟩
    let w : World := {
      files := { entries := [(["p.json"], FileFormat.write p .json)] }, environment := []
      outcomes := fun _ => .lost, source := ⟨Uuid.numbered, 5⟩, isPattern := fun _ => true }
    (compile p.tree p.metadata).warnings.map mark =
        [(rooms.id, .missingElement), (⟨.numbered 3⟩, .duplicateName)] ∧
      ¬ Complete p.tree.roots ∧
      (CompileCommand.run { project := "p.json", denyWarnings := true } w).code = 1 := by
  intro rooms unnamed home p w
  have wellFormed : p.tree.WellFormed := p.tree.wellFormed_iff.2 (by decide +kernel)
  have plain {C : Constraints → Prop} :
      Property.Everywhere (Property.Constrained C) p.tree.roots := by
    intro q mem c given
    simp only [p, home, rooms, unnamed, Property.subtreeOfList, Property.subtree,
      Property.subtreeOfOption, List.append_nil, List.cons_append, List.nil_append, List.mem_cons,
      List.not_mem_nil, or_false] at mem
    rcases mem with rfl | rfl | rfl | rfl <;> simp at given
  have fits : p.toJson.depth ≤ Json.nestingLimit := by decide +kernel
  have loaded : w.files.loadProject "p.json" = .ok p :=
    (Files.loadProject_of_written rfl rfl wellFormed plain plain).1 fits
  obtain ⟨warned, iff, run⟩ := warnings_exact p.tree p.metadata
  have marks : levelDefects [] p.tree.roots =
      [(rooms.id, .missingElement), (⟨.numbered 3⟩, .duplicateName)] := by decide +kernel
  have incomplete : ¬ Complete p.tree.roots := by
    rw [← iff wellFormed.legal]
    intro quiet
    rw [quiet, marks] at warned
    exact absurd warned (by simp)
  exact ⟨warned.trans marks, incomplete, (run { project := "p.json" } w p loaded rfl).2 incomplete⟩

end CredentialSchema.SchemaPass

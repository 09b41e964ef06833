import CredentialSchema.Proofs.Compile.Strictness
import CredentialSchema.Proofs.Compile.Subschemas

/-!
The strictness audit of any document, compiled or not. It goes from a schema to the subschemas one
step down, so it comes to every subschema once, and what it finds are those that are object levels
and have another answer than the one that is expected.
-/
namespace CredentialSchema.Strictness

open Json (Value)
open SchemaPass

variable {v : Value} {expected : Bool} {path : String}

/-- An object level that does not have the answer that is expected. -/
structure Deviates (expected : Bool) (schema : Value) : Prop where
  level : schema.get? "type" = some (.string "object") ∨ ∃ p, schema.get? "properties" = some p
  answer : schema.get? "additionalProperties" ≠ some (.bool expected)

theorem deviates_iff (expected : Bool) (schema : Value) : Deviates expected schema ↔
    isObjectLevel schema ∧ schema.get? "additionalProperties" ≠ some (.bool expected) := by
  rw [isObjectLevel, Bool.or_eq_true, beq_iff_eq, Option.isSome_iff_exists]
  exact ⟨fun h => ⟨h.level, h.answer⟩, fun h => ⟨h.1, h.2⟩⟩

instance (expected : Bool) (schema : Value) : Decidable (Deviates expected schema) :=
  decidable_of_iff _ (deviates_iff expected schema).symm

def finding (path : String) (expected : Bool) (schema : Value) : Finding :=
  ⟨path ++ "/additionalProperties", ((schema.get? "additionalProperties").map Value.compact).getD
    "(absent, defaults to true)", expected⟩

theorem levelFindings_eq (path : String) (expected : Bool) (schema : Value) :
    levelFindings path expected schema =
      if Deviates expected schema then [finding path expected schema] else [] := by
  simp only [levelFindings, deviates_iff, Bool.and_eq_true, bne_iff_ne, finding]

theorem mem_levelFindings_iff (path : String) (expected : Bool) (schema : Value) (f : Finding) :
    f ∈ levelFindings path expected schema ↔
      Deviates expected schema ∧ f = finding path expected schema := by
  rw [levelFindings_eq]
  split <;> simp_all

theorem auditAt_eq (path : String) (expected : Bool) (v : Value) : auditAt path expected v =
    levelFindings path expected v ++ (directSubschemas v).flatMap fun c =>
      auditAt (path ++ c.1.pointer) expected c.2 := by
  cases v with
  | object ms =>
    have members : auditProperties path expected ms = ((listed (.object ms)).map
        fun m => (Step.member m.1, m.2)).flatMap fun c =>
          auditAt (path ++ c.1.pointer) expected c.2 := by
      rw [auditProperties_eq, auditEach_eq, List.flatMap_map]
      simp only [Step.pointer, String.append_assoc]
      rfl
    have element : auditItems path expected ms = ((ms.lookup "items").toList.map
        (Step.element, ·)).flatMap fun c => auditAt (path ++ c.1.pointer) expected c.2 := by
      rw [auditItems_eq]
      cases ms.lookup "items" <;> simp [Step.pointer]
    rw [auditAt, members, element, directSubschemas, List.flatMap_append, List.append_assoc]
    rfl
  | null | bool | number | string | array =>
    simp [auditAt, levelFindings, isObjectLevel, directSubschemas, listed, Value.get?]

theorem mem_auditAt_iff (distinct : v.Distinct) (path : String) (expected : Bool) (f : Finding) :
    f ∈ auditAt path expected v ↔ ∃ steps w, subschema? steps v = some w ∧ Deviates expected w ∧
      f = finding (path ++ pointer steps) expected w := by
  induction v using directSubschemas_induct generalizing path with
  | node v ih =>
    rw [auditAt_eq, List.mem_append, mem_levelFindings_iff, List.mem_flatMap]
    constructor
    · rintro (⟨deviates, rfl⟩ | ⟨⟨s, u⟩, direct, isBelow⟩)
      · exact ⟨[], v, rfl, deviates, by rw [pointer, String.append_empty]⟩
      · have apart := distinct_of_mem_directSubschemas distinct direct
        obtain ⟨steps, w, reached, deviates, rfl⟩ := (ih _ direct apart _).1 isBelow
        refine ⟨s :: steps, w, ?_, deviates, by rw [pointer, String.append_assoc]⟩
        exact (subschema?_cons_iff distinct s steps w).2 ⟨u, direct, reached⟩
    · rintro ⟨_ | ⟨s, steps⟩, w, reached, deviates, rfl⟩
      · obtain rfl := Option.some.inj reached
        exact .inl ⟨deviates, by rw [pointer, String.append_empty]⟩
      · obtain ⟨u, direct, reached⟩ := (subschema?_cons_iff distinct s steps w).1 reached
        have apart := distinct_of_mem_directSubschemas distinct direct
        refine .inr ⟨(s, u), direct, (ih _ direct apart _).2 ⟨steps, w, reached, deviates, ?_⟩⟩
        rw [pointer, String.append_assoc]

theorem finding_pointer_inj {steps steps' : List Step} {w w' : Value}
    (same : (finding (path ++ pointer steps) expected w).pointer =
      (finding (path ++ pointer steps') expected w').pointer) : steps = steps' := by
  simp only [finding, String.append_left_inj, String.append_right_inj] at same
  exact pointer_inj same

theorem nodup_pointers (distinct : v.Distinct) (path : String) (expected : Bool) :
    ((auditAt path expected v).map Finding.pointer).Nodup := by
  induction v using directSubschemas_induct generalizing path with
  | node v ih =>
    have below {c : Step × Value} (direct : c ∈ directSubschemas v) {p : String}
        (mem : p ∈ (auditAt (path ++ c.1.pointer) expected c.2).map Finding.pointer) :
        ∃ steps w, p = (finding (path ++ pointer (c.1 :: steps)) expected w).pointer := by
      obtain ⟨f, isBelow, rfl⟩ := List.mem_map.1 mem
      have apart := distinct_of_mem_directSubschemas distinct direct
      obtain ⟨steps, w, -, -, rfl⟩ := (mem_auditAt_iff apart _ expected f).1 isBelow
      exact ⟨steps, w, by rw [pointer, String.append_assoc]⟩
    rw [auditAt_eq, List.map_append, List.map_flatMap, List.nodup_append']
    refine ⟨?_, List.nodup_flatMap.2 ⟨fun c direct => ?_, ?_⟩, ?_⟩
    · rw [levelFindings_eq]
      split <;> simp
    · exact ih c direct (distinct_of_mem_directSubschemas distinct direct) _
    · -- Below different steps the pointers differ, because they tell the first step.
      have steps := List.pairwise_map.1 (nodup_directSubschemas distinct)
      refine steps.imp_of_mem fun direct direct' other p mem mem' => ?_
      obtain ⟨steps, w, rfl⟩ := below direct mem
      obtain ⟨steps', w', same⟩ := below direct' mem'
      exact other (List.cons.inj (finding_pointer_inj same)).1
    · intro p here mem
      obtain ⟨c, direct, mem⟩ := List.mem_flatMap.1 mem
      obtain ⟨steps, w, rfl⟩ := below direct mem
      obtain ⟨f, isHere, same⟩ := List.mem_map.1 here
      obtain ⟨-, rfl⟩ := (mem_levelFindings_iff path expected v f).1 isHere
      have noSteps : (finding (path ++ pointer []) expected v).pointer =
          (finding (path ++ pointer (c.1 :: steps)) expected w).pointer := by
        rwa [pointer, String.append_empty]
      cases finding_pointer_inj noSteps

/-- A finding about the subschema that some steps lead to in a document. Its pointer without the
last token refers to that subschema, and its tokens are these steps and the keyword. -/
structure Reports (document : Value) (expected : Bool) (steps : List Step) (f : Finding) :
    Prop where
  subschema : ∃ w, subschema? steps document = some w ∧
    Pointer.holder? f.pointer document = some w ∧ f = finding (pointer steps) expected w
  tokens : Pointer.tokens? f.pointer = some (steps.flatMap Step.tokens ++ ["additionalProperties"])

theorem reports_finding {document w : Value} {steps : List Step} (expected : Bool)
    (reached : subschema? steps document = some w) :
    Reports document expected steps (finding (pointer steps) expected w) := by
  have keyword : "/additionalProperties" = Pointer.write ["additionalProperties"] := by decide
  have written : (finding (pointer steps) expected w).pointer =
      Pointer.write (steps.flatMap Step.tokens ++ ["additionalProperties"]) := by
    rw [finding, pointer_eq_write, keyword, Pointer.write_append]
  constructor
  · refine ⟨w, reached, ?_, rfl⟩
    rw [written, Pointer.holder?_write]
    exact follow?_tokens reached
  · rw [written, Pointer.tokens?_write]

/-- An audit of any document finds, once each, the object levels that deviate among the subschemas
that steps into listed members and elements lead to, and nothing else. Its pointers are pairwise
distinct and lead back to the levels, whatever the members are called. -/
theorem audit_exact {v : Value} (distinct : v.Distinct) (expected : Bool) :
    (∃ levels : List (List Step), levels.Nodup ∧
      (∀ steps, steps ∈ levels ↔ ∃ w, subschema? steps v = some w ∧ Deviates expected w) ∧
      List.Forall₂ (Reports v expected) levels (audit v expected)) ∧
    ((audit v expected).map Finding.pointer).Nodup := by
  have found (f : Finding) : f ∈ audit v expected ↔ ∃ steps w, subschema? steps v = some w ∧
      Deviates expected w ∧ f = finding (pointer steps) expected w := by
    rw [audit, mem_auditAt_iff distinct]
    simp only [String.empty_append]
  have pointers : ((audit v expected).map Finding.pointer).Nodup :=
    nodup_pointers distinct "" expected
  obtain ⟨levels, reports⟩ : ∃ levels, List.Forall₂ (Reports v expected) levels
      (audit v expected) := by
    refine exists_forall₂ fun f mem => ?_
    obtain ⟨steps, w, reached, -, rfl⟩ := (found f).1 mem
    exact ⟨steps, reports_finding expected reached⟩
  let written (steps : List Step) : String := pointer steps ++ "/additionalProperties"
  have tells : Function.Injective written := fun steps steps' same =>
    pointer_inj ((String.append_left_inj _).1 same)
  have same : levels.map written = (audit v expected).map Finding.pointer := by
    refine map_eq_map_iff_forall₂.2 (reports.imp fun steps f report => ?_)
    obtain ⟨w, -, -, rfl⟩ := report.subschema
    rfl
  refine ⟨⟨levels, .of_map written (same ▸ pointers), fun steps => ?_, reports⟩, pointers⟩
  rw [← List.mem_map_of_injective tells, same, List.mem_map]
  constructor
  · rintro ⟨f, mem, own⟩
    obtain ⟨steps', w, reached, deviates, rfl⟩ := (found f).1 mem
    obtain rfl := tells own
    exact ⟨w, reached, deviates⟩
  · rintro ⟨w, reached, deviates⟩
    exact ⟨_, (found _).2 ⟨steps, w, reached, deviates, rfl⟩, rfl⟩

/-- Names that hold what a pointer escapes, or nothing at all. The elements of an array say nothing,
and where an answer is given it is another. -/
theorem audit_exact_names :
    let level (answer : Bool) (ms : List (String × Value)) : Value :=
      .object [("properties", .object ms), ("additionalProperties", .bool answer)]
    let element : Value := .object [("type", .string "object")]
    let v := level false
      [("a/b", level false [("", level true [])]), ("~1", .object [("items", element)])]
    v.Distinct ∧ audit v false =
      [⟨"/properties/a~1b/properties//additionalProperties", "true", false⟩,
        ⟨"/properties/~01/items/additionalProperties", "(absent, defaults to true)", false⟩] ∧
      ∃ levels : List (List Step), levels.Nodup ∧
        [.member "a/b", .member ""] ∈ levels ∧ [.member "~1", .element] ∈ levels ∧
        List.Forall₂ (Reports v false) levels (audit v false) := by
  intro level element v
  have distinct : v.Distinct := by
    simp [v, level, element, Value.Distinct, Value.DistinctMembers]
  obtain ⟨⟨levels, once, all, reports⟩, -⟩ := audit_exact distinct false
  refine ⟨distinct, by decide +kernel, levels, once, (all _).2 ⟨level true [], rfl, ?_⟩,
    (all _).2 ⟨element, rfl, ?_⟩, reports⟩
  · decide
  · decide

end CredentialSchema.Strictness

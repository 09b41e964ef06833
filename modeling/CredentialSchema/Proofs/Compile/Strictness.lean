import CredentialSchema.Command.Compile
import CredentialSchema.Proofs.Compile.Conformance
import CredentialSchema.Proofs.Compile.Sites

/-!
The strictness audit of compiled schemas. The audit takes for an object level what the schema pass
compiled from an object, wherever that stands and whatever the properties in it are called, and
nothing else. So it agrees with every compiled schema, and asked for the opposite answer it finds
the levels of the tree, each once and in order.
-/
namespace CredentialSchema

open Json (Value)
open SchemaPass

namespace Strictness

variable (path : String) (expected : Bool)

theorem auditProperties_eq (ms : List (String × Value)) :
    auditProperties path expected ms = auditEach path expected (JsonSchema.listed ms) := by
  induction ms with
  | nil => rfl
  | cons m ms ih =>
    obtain ⟨k, v⟩ := m
    rw [auditProperties.eq_def, JsonSchema.listed, List.lookup_cons]
    dsimp only
    split
    · next same =>
      subst same
      cases v <;> rfl
    · next other =>
      have differs : ("properties" == k) = false := beq_eq_false_iff_ne.2 (Ne.symm other)
      rw [ih, differs]
      rfl

theorem auditItems_eq (ms : List (String × Value)) :
    auditItems path expected ms =
      ((ms.lookup "items").map (auditAt (path ++ "/items") expected)).getD [] := by
  induction ms with
  | nil => rfl
  | cons m ms ih =>
    obtain ⟨k, v⟩ := m
    rw [auditItems, List.lookup_cons]
    split
    · next same =>
      subst same
      rfl
    · next other =>
      have differs : ("items" == k) = false := beq_eq_false_iff_ne.2 (Ne.symm other)
      rw [ih, differs]

theorem auditEach_eq (ms : List (String × Value)) :
    auditEach path expected ms =
      ms.flatMap fun m => auditAt (path ++ "/properties/" ++ escapeSegment m.1) expected m.2 := by
  induction ms with
  | nil => rfl
  | cons m ms ih => rw [auditEach, ih, List.flatMap_cons]

end Strictness

namespace SchemaPass

open Strictness

def objectSteps (ss : List Site) : List (List Step) :=
  (ss.filter fun s => s.property.kind == .object).map Site.steps

/-- The steps to the object levels of a tree: none to the top level, and those to every object
that the schema shows. -/
def levels (t : Tree) : List (List Step) := [] :: objectSteps (memberSites t.roots)

/-- What an audit says of a level that gives an answer. -/
def answered (extra expected : Bool) (path : String) : List Finding :=
  if extra = expected then [] else [⟨path ++ "/additionalProperties", toString extra, expected⟩]

variable {extra : Bool} (expected : Bool)

theorem levelFindings_level {keywords : List (String × Value)} (path : String)
    (type : keywords.lookup "type" = some (.string "object"))
    (additional : keywords.lookup "additionalProperties" = some (.bool extra)) :
    levelFindings path expected (.object keywords) = answered extra expected path := by
  have isLevel : isObjectLevel (.object keywords) = true := by
    simp [isObjectLevel, Value.get?, type]
  have text : (Value.bool extra).compact = toString extra := by cases extra <;> rfl
  rw [levelFindings, isLevel]
  by_cases same : extra = expected <;>
    simp [Value.get?, additional, answered, same, text]

theorem levelFindings_other {keywords : List (String × Value)} {kind : Kind} (path : String)
    (other : kind ≠ .object) (type : keywords.lookup "type" = some (.string kind.text))
    (properties : keywords.lookup "properties" = none) :
    levelFindings path expected (.object keywords) = [] := by
  have notLevel : isObjectLevel (.object keywords) = false := by
    have differs : kind.text ≠ "object" := by
      cases kind <;> first | exact absurd rfl other | decide
    simp [isObjectLevel, Value.get?, type, properties, differs]
  simp [levelFindings, notLevel]

theorem objectSteps_below (s : Step) (ss : List Site) :
    objectSteps (ss.map (Site.below s)) = (objectSteps ss).map (s :: ·) := by
  simp [objectSteps, List.filter_map, Function.comp_def, Site.below]

theorem objectSteps_memberSites (ms : List Property) :
    objectSteps (memberSites ms) =
      (firsts ms).flatMap fun p => (objectSteps (sites p)).map (.member p.name :: ·) := by
  rw [memberSites_eq, objectSteps, List.filter_flatMap, List.map_flatMap]
  exact congrArg (firsts ms).flatMap (funext fun p => objectSteps_below _ _)

/-- What an audit says of an object level, if it says the like of every child. -/
theorem audit_level {ms : List Property} (ih : ∀ p ∈ ms, ∀ path location,
      auditAt path expected (property extra location p).1 =
        (objectSteps (sites p)).flatMap fun ss => answered extra expected (path ++ pointer ss))
    (path location : String) (title description : Option String) :
    auditAt path expected (.object (heading "object" title description ++
        levelMembers extra ms (children extra location [] ms).1)) =
      ([] :: objectSteps (memberSites ms)).flatMap fun ss =>
        answered extra expected (path ++ pointer ss) := by
  let schemas := (children extra location [] ms).1
  have below (name : String) (other : name ∉ ["type", "title", "description"]) :=
    lookup_heading_append "object" title description (levelMembers extra ms schemas) other
  have listed : JsonSchema.listed (heading "object" title description ++
      levelMembers extra ms schemas) = schemas := by
    rw [JsonSchema.listed, below "properties" (by decide)]
    rfl
  have items : (heading "object" title description ++ levelMembers extra ms schemas).lookup
      "items" = none :=
    lookup_heading_append_eq_none "object" title description
      (fun _ => keyword_of_mem_levelMembers) (by decide)
  have here := levelFindings_level expected path
    (lookup_type_heading_append "object" title description (levelMembers extra ms schemas))
    ((below "additionalProperties" (by decide)).trans
      (lookup_additional_levelMembers extra ms schemas))
  have child (p : Property) (mem : p ∈ firsts ms) :
      auditAt (path ++ "/properties/" ++ escapeSegment p.name) expected
          (property extra (Warning.childPath location p.name) p).1 =
        ((objectSteps (sites p)).map (.member p.name :: ·)).flatMap fun ss =>
          answered extra expected (path ++ pointer ss) := by
    rw [ih p (firsts_subset ms mem), List.flatMap_map]
    simp only [pointer, Step.pointer, String.append_assoc]
  rw [auditAt, here, auditProperties_eq, auditItems_eq, items, listed, auditEach_eq,
    show schemas = _ from fst_children_nil extra location ms, List.flatMap_map,
    List.flatMap_congr child, List.flatMap_cons, objectSteps_memberSites, List.flatMap_assoc]
  simp [pointer]

/-- An audit looks for levels among the elements of an array and in nothing else that is no
object level. -/
theorem audit_flat {kind : Kind} {rest : List (String × Value)} {keys : List String}
    (other : kind ≠ .object) (keyword : ∀ k ∈ rest, k.1 ∈ keys)
    (absent : "properties" ∉ ["type", "title", "description"] ++ keys) (path : String)
    (title description : Option String) :
    auditAt path expected (.object (heading kind.text title description ++ rest)) =
      ((rest.lookup "items").map (auditAt (path ++ "/items") expected)).getD [] := by
  have properties := lookup_heading_append_eq_none kind.text title description keyword absent
  have items := lookup_heading_append kind.text title description rest (by decide : "items" ∉ _)
  rw [auditAt, auditProperties_eq, auditItems_eq, JsonSchema.listed, properties, items,
    levelFindings_other expected path other (lookup_type_heading_append _ _ _ _) properties]
  rfl

theorem audit_property (p : Property) (path location : String) :
    auditAt path expected (property extra location p).1 =
      (objectSteps (sites p)).flatMap fun ss => answered extra expected (path ++ pointer ss) := by
  induction p using Property.induct generalizing path location with
  | node d ms e members element =>
    cases kind : d.kind with
    | object =>
      have steps : objectSteps (sites ⟨d, ms, e⟩) = [] :: objectSteps (memberSites ms) := by
        simp [sites, objectSteps, Property.kind, kind]
      rw [steps]
      simp only [property, kind]
      exact audit_level expected members path location d.displayName d.description
    | array =>
      have steps : objectSteps (sites ⟨d, ms, e⟩) = objectSteps (elementSites e) := by
        simp [sites, objectSteps, Property.kind, kind]
      have keyword : ∀ k ∈ (SchemaPass.element extra location d e).1, k.1 ∈ ["items"] := by
        cases e <;> simp [SchemaPass.element]
      rw [steps]
      simp only [property, kind]
      rw [audit_flat expected (by decide) keyword (by decide)]
      cases e with
      | none => rfl
      | some p =>
        have below := element p rfl (path ++ "/items") (Warning.elementPath location)
        rw [elementSites, objectSteps_below, List.flatMap_map]
        simpa [SchemaPass.element, pointer, Step.pointer, String.append_assoc] using below
    | string | integer | number | boolean =>
      have steps : objectSteps (sites ⟨d, ms, e⟩) = [] := by
        simp [sites, objectSteps, Property.kind, kind]
      have keyword : ∀ k ∈ (d.constraints.map (constraintMembers d.kind)).getD [],
          k.1 ∈ JsonSchema.leafKeywords := by
        cases d.constraints with
        | none => exact List.forall_mem_nil _
        | some c => exact fun _ => keyword_of_mem_constraintMembers
      rw [kind] at keyword
      have items := lookup_eq_none keyword (by decide : "items" ∉ _)
      rw [steps]
      simp only [property, kind]
      rw [audit_flat expected (by decide) keyword (by decide), items]
      rfl

/-- The audit agrees with every compiled schema, so the command never refuses one; asked for the
opposite answer it finds each object level of the tree once. -/
theorem audit_compile (t : Tree) (m : Metadata) :
    audit (compile t m).document m.additionalProperties = [] ∧
      (∀ (id : ProjectId) (mode : Mode) (n : Namespaces),
        CompileCommand.findings ⟨id, m, t⟩ (Project.compileAs ⟨id, m, t⟩ mode n) = []) ∧
      audit (compile t m).document (!m.additionalProperties) = (levels t).map fun ss =>
        ⟨pointer ss ++ "/additionalProperties", toString m.additionalProperties,
          !m.additionalProperties⟩ := by
  have found (expected : Bool) : audit (compile t m).document expected =
      (levels t).flatMap fun ss => answered m.additionalProperties expected (pointer ss) := by
    have each (p : Property) (_ : p ∈ t.roots) (path location : String) :
        auditAt path expected (property m.additionalProperties location p).1 = _ :=
      audit_property expected p path location
    have level := audit_level expected each "" "" (some m.title) m.description
    simp only [String.empty_append] at level
    exact level
  have agrees : audit (compile t m).document m.additionalProperties = [] := by
    rw [found]
    simp [answered]
  refine ⟨agrees, ?_, ?_⟩
  · intro id mode n
    cases mode with
    | schema => exact agrees
    | context => rfl
  · rw [found, List.map_eq_flatMap]
    simp [answered]

/-- A member that hides a later one of its name, and an object as the element of an array. -/
example :
    let node (n : Nat) (name : String) (kind : Kind) (ms : List Property)
        (e : Option Property) : Property := ⟨{ id := ⟨.numbered n⟩, name, kind }, ms, e⟩
    let phone := node 1 "phones" .object [] none
    levels ⟨[node 2 "home" .object [node 3 "phones" .array [] (some phone)] none,
        node 4 "home" .object [phone] none], 0⟩ =
      [[], [.member "home"], [.member "home", .member "phones", .element]] := by
  decide

end SchemaPass
end CredentialSchema

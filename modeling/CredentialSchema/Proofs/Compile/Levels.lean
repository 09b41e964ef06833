import CredentialSchema.Proofs.Compile.Conformance
import CredentialSchema.Proofs.Compile.Document

/-!
The object levels of a schema. The steps that lead to a property from the top of its tree lead to
its schema from the top of the document, so the object levels of the two go together, and each of
the document lists the names of its children and of those that are required, as they first come.
-/
namespace CredentialSchema

open Json (Value)
open SchemaPass (Step)
open JsonSchema (leafKeywords)

/-- The property that some steps lead to: through the first member of each name, and through element
definitions. -/
def Property.at? : List Step → Property → Option Property
  | [], p => some p
  | .member name :: steps, ⟨d, ms, _⟩ =>
    if d.kind = .object then (ms.find? fun p => p.name == name).bind (at? steps) else none
  | .element :: steps, ⟨d, _, e⟩ => if d.kind = .array then e.bind (at? steps) else none

/-- The children of the object level that some steps lead to. -/
def Tree.level? (t : Tree) : List Step → Option (List Property)
  | [] => some t.roots
  | .member name :: steps =>
    let reached := (t.roots.find? fun p => p.name == name).bind (Property.at? steps)
    (reached.filter fun p => p.kind = .object).map Property.members
  | .element :: _ => none

namespace SchemaPass

def subschema? : List Step → Value → Option Value
  | [], v => some v
  | .member name :: steps, v =>
    ((v.get? "properties").bind fun listed => listed.get? name).bind (subschema? steps)
  | .element :: steps, v => (v.get? "items").bind (subschema? steps)

/-- The object level of a schema that some steps lead to. -/
def level? (steps : List Step) (v : Value) : Option Value :=
  (subschema? steps v).filter fun s => s.get? "type" == some (.string "object")

/-- An object level of a schema lists exactly what its children say: under `properties` the names of
all, under `required` those of the required ones, which is left out if there are none. -/
structure ExactLevel (children : List Property) (level : Value) : Prop where
  properties : ∃ listed, level.get? "properties" = some (.object listed) ∧
    InFirstOrder (children.map Property.name) (listed.map Prod.fst)
  absent : level.get? "required" = none ↔ ∀ p ∈ children, p.decl.required = false
  required : ∀ v, level.get? "required" = some v → ∃ names, v = .array (names.map .string) ∧
    InFirstOrder ((children.filter fun p => p.decl.required).map Property.name) names ∧
    ∀ name ∈ names, ∃ listed, level.get? "properties" = some (.object listed) ∧
      name ∈ listed.map Prod.fst

theorem requiredNames_eq_nil_iff (children : List Property) :
    requiredNames children = [] ↔ ∀ p ∈ children, p.decl.required = false := by
  simp only [List.eq_nil_iff_forall_not_mem, mem_requiredNames_iff, not_exists, not_and]
  constructor
  · intro none p child
    exact Bool.eq_false_iff.2 fun required => none p.name p child required rfl
  · intro optional name p child required
    simp [optional p child] at required

variable (extra : Bool)

theorem exactLevel (title description : Option String) (children : List Property) :
    ExactLevel children (.object (heading "object" title description ++
      levelMembers extra children (schemas extra children))) := by
  let level := Value.object (heading "object" title description ++
    levelMembers extra children (schemas extra children))
  have properties : level.get? "properties" = some (.object (schemas extra children)) := by
    rw [Value.get?, lookup_heading_append _ _ _ _ (by decide)]
    rfl
  have required : level.get? "required" = if (requiredNames children).isEmpty then none
      else some (.array ((requiredNames children).map .string)) := by
    rw [Value.get?, lookup_heading_append _ _ _ _ (by decide), lookup_required_levelMembers]
  have names : InFirstOrder (children.map Property.name)
      ((schemas extra children).map Prod.fst) := by
    rw [names_schemas]
    exact inFirstOrder_firsts children
  constructor
  case properties => exact ⟨_, properties, names⟩
  case absent =>
    rw [required, ← requiredNames_eq_nil_iff]
    cases requiredNames children <;> simp
  case required =>
    intro v listed
    rw [required] at listed
    split at listed
    · cases listed
    · refine ⟨requiredNames children, (Option.some.inj listed).symm, inFirstOrder_eraseDups _, ?_⟩
      intro name mem
      obtain ⟨p, child, -, rfl⟩ := (mem_requiredNames_iff children name).1 mem
      exact ⟨_, properties, (names.mem_iff _).2 (List.mem_map_of_mem child)⟩

theorem lookup_schemas (ps : List Property) (name : String) :
    (schemas extra ps).lookup name =
      (ps.find? fun p => p.name == name).map (schema extra) := by
  rw [← fst_children_eq extra "", lookup_children]
  simp [fst_property]

theorem get?_type_schema (p : Property) :
    (schema extra p).get? "type" = some (.string p.kind.text) := by
  obtain ⟨d, ms, e⟩ := p
  cases kind : d.kind with
  | object => rw [schema_object extra ms e kind, Value.get?, lookup_type_heading_append,
      Property.kind, kind, Kind.text]
  | array => rw [schema_array extra ms e kind, Value.get?, lookup_type_heading_append,
      Property.kind, kind, Kind.text]
  | string | integer | number | boolean =>
    have scalar : d.kind.isContainer = false := by simp [kind, Kind.isContainer]
    rw [schema_scalar extra ms e scalar, Value.get?, lookup_type_heading_append, Property.kind]

theorem get?_schema_of_scalar {d : Declaration} (ms : List Property) (e : Option Property)
    (scalar : d.kind.isContainer = false) {keyword : String}
    (container : keyword ∈ ["properties", "items"]) :
    (schema extra ⟨d, ms, e⟩).get? keyword = none := by
  have leaf : ∀ k ∈ (d.constraints.map (constraintMembers d.kind)).getD [],
      k.1 ∈ leafKeywords := by
    cases d.constraints with
    | none => exact nofun
    | some c => exact fun k mem => keyword_of_mem_constraintMembers mem
  rw [schema_scalar extra ms e scalar, Value.get?]
  refine lookup_heading_append_eq_none _ _ _ leaf ?_
  revert keyword
  decide

theorem get?_properties_schema (p : Property) : (schema extra p).get? "properties" =
    if p.kind = .object then some (.object (schemas extra p.members)) else none := by
  obtain ⟨d, ms, e⟩ := p
  cases kind : d.kind with
  | object =>
    rw [schema_object extra ms e kind, Value.get?, lookup_heading_append _ _ _ _ (by decide),
      Property.kind, if_pos kind]
    rfl
  | array =>
    rw [schema_array extra ms e kind, Value.get?, Property.kind, kind]
    have items : ∀ k ∈ member "items" (e.map (schema extra)), k.1 ∈ ["items"] :=
      fun k mem => by simp [keyword_of_mem_member mem]
    exact lookup_heading_append_eq_none _ _ _ items (by decide)
  | string | integer | number | boolean =>
    have scalar : d.kind.isContainer = false := by simp [kind, Kind.isContainer]
    rw [get?_schema_of_scalar extra ms e scalar (by decide), Property.kind, kind]
    rfl

theorem get?_items_schema (p : Property) : (schema extra p).get? "items" =
    if p.kind = .array then p.element.map (schema extra) else none := by
  obtain ⟨d, ms, e⟩ := p
  cases kind : d.kind with
  | object =>
    rw [schema_object extra ms e kind, Value.get?, Property.kind, kind]
    exact lookup_heading_append_eq_none _ _ _ (fun k mem => keyword_of_mem_levelMembers mem)
      (by decide)
  | array =>
    rw [schema_array extra ms e kind, Value.get?, lookup_heading_append _ _ _ _ (by decide),
      Property.kind, if_pos kind]
    cases e <;> rfl
  | string | integer | number | boolean =>
    have scalar : d.kind.isContainer = false := by simp [kind, Kind.isContainer]
    rw [get?_schema_of_scalar extra ms e scalar (by decide), Property.kind, kind]
    rfl

theorem subschema?_schema (steps : List Step) (p : Property) :
    subschema? steps (schema extra p) = (p.at? steps).map (schema extra) := by
  induction steps generalizing p with
  | nil => rfl
  | cons step steps ih =>
    obtain ⟨d, ms, e⟩ := p
    cases step with
    | member name =>
      rw [subschema?, Property.at?, get?_properties_schema]
      by_cases kind : d.kind = .object
      · simp only [Property.kind, kind, if_true, Option.bind_some, Value.get?,
          lookup_schemas]
        cases ms.find? fun p => p.name == name <;> simp [ih]
      · simp [Property.kind, kind]
    | element =>
      rw [subschema?, Property.at?, get?_items_schema]
      by_cases kind : d.kind = .array
      · cases e <;> simp [Property.kind, kind, ih]
      · simp [Property.kind, kind]

theorem level?_schema (steps : List Step) (p : Property) :
    level? steps (schema extra p) =
      ((p.at? steps).filter fun p => p.kind = .object).map (schema extra) := by
  rw [level?, subschema?_schema]
  cases p.at? steps with
  | none => rfl
  | some q =>
    have word : q.kind.text = "object" ↔ q.kind = .object := by cases q.kind <;> decide
    simp [Option.filter, get?_type_schema, word]

/-- The object levels of a document are those of its tree, at the same steps, and each of them lists
exactly what its children say. -/
theorem exact_levels (t : Tree) (m : Metadata) (steps : List Step) :
    Option.Rel ExactLevel (t.level? steps) (level? steps (compile t m).document) := by
  -- The whole document is the schema of an object that has the top level for members.
  let d : Declaration := { id := ⟨.numbered 0⟩, name := "", kind := .object }
  let top : Property :=
    ⟨{ d with displayName := some m.title, description := m.description }, t.roots, none⟩
  have document : (compile t m).document = schema m.additionalProperties top := by
    rw [document_compile, schema_object _ _ _ rfl]
  have level : t.level? steps =
      ((top.at? steps).filter fun p => p.kind = .object).map Property.members := by
    cases steps with
    | nil => rfl
    | cons step steps => cases step <;> rfl
  rw [document, level, level?_schema]
  cases reached : (top.at? steps).filter fun p => p.kind = .object with
  | none => exact .none
  | some p =>
    obtain ⟨d, ms, e⟩ := p
    have kind : d.kind = .object := by simpa using (Option.filter_eq_some_iff.1 reached).2
    refine .some ?_
    rw [schema_object _ ms e kind]
    exact exactLevel m.additionalProperties d.displayName d.description ms

end SchemaPass
end CredentialSchema

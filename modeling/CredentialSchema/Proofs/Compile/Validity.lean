import CredentialSchema.Compile.Schema

/-!
What it means for a value to be valid against a schema. The keywords that speak of types, of
members and of elements have their standard meaning: those on members say nothing of a value
that is no object, `items` says nothing of one that is no array, and a name that `properties`
lists is not additional. The keywords on scalars are read as a parameter says, and a schema
may hold any other keyword without effect.
-/
namespace CredentialSchema.JsonSchema

open Json (Value)

/-- The types that a value has. A whole number is an integer however it is written. -/
def types : Value → List String
  | .null => ["null"]
  | .bool _ => ["boolean"]
  | .string _ => ["string"]
  | .number (.integer _) => ["integer", "number"]
  | .number (.float x) => if x.toInt?.isSome then ["integer", "number"] else ["number"]
  | .array _ => ["array"]
  | .object _ => ["object"]

def leafKeywords : List String :=
  ["minLength", "maxLength", "pattern", "minimum", "maximum", "multipleOf", "format", "enum"]

def listed (keywords : List (String × Value)) : List (String × Value) :=
  ((keywords.lookup "properties").bind Value.asObject?).getD []

/-- Validity, with a meaning for each leaf keyword, its argument and the value it constrains. -/
inductive Valid (leaf : String → Value → Value → Prop) : Value → Value → Prop
  | anything (v : Value) : Valid leaf (.bool true) v
  | keywords {keywords : List (String × Value)} {v : Value}
    (type : ∀ word, keywords.lookup "type" = some (.string word) → word ∈ types v)
    (leaves : ∀ k ∈ keywords, k.1 ∈ leafKeywords → leaf k.1 k.2 v)
    (required : ∀ names, keywords.lookup "required" = some (.array names) →
      ∀ fields, v = .object fields → ∀ name, .string name ∈ names → name ∈ fields.map Prod.fst)
    (properties : ∀ fields, v = .object fields → ∀ m ∈ fields,
      ∀ schema, (listed keywords).lookup m.1 = some schema → Valid leaf schema m.2)
    (additional : ∀ schema, keywords.lookup "additionalProperties" = some schema →
      ∀ fields, v = .object fields → ∀ m ∈ fields, (listed keywords).lookup m.1 = none →
        Valid leaf schema m.2)
    (items : ∀ schema, keywords.lookup "items" = some schema →
      ∀ elements, v = .array elements → ∀ x ∈ elements, Valid leaf schema x) :
    Valid leaf (.object keywords) v

variable (leaf : String → Value → Value → Prop)

theorem types_number_subset (n : Json.Number) : types (.number n) ⊆ ["integer", "number"] := by
  cases n with
  | integer n => simp [types]
  | float x => by_cases whole : x.toInt?.isSome <;> simp [types, whole]

theorem object_mem_types_iff (v : Value) :
    "object" ∈ types v ↔ ∃ fields, v = .object fields := by
  cases v with
  | number n => exact ⟨fun h => by simpa using types_number_subset n h, nofun⟩
  | _ => simp [types]

theorem array_mem_types_iff (v : Value) :
    "array" ∈ types v ↔ ∃ elements, v = .array elements := by
  cases v with
  | number n => exact ⟨fun h => by simpa using types_number_subset n h, nofun⟩
  | _ => simp [types]

theorem valid_bool_iff (b : Bool) (v : Value) : Valid leaf (.bool b) v ↔ b = true := by
  constructor
  · rintro ⟨⟩
    rfl
  · rintro rfl
    exact .anything v

/-- A value is valid against an object level if it is an object that has the required names, in
which every listed name is valid and any other is allowed. -/
theorem valid_level_iff {keywords listedSchemas : List (String × Value)} {names : List String}
    {extra : Bool} (type : keywords.lookup "type" = some (.string "object"))
    (leaves : ∀ k ∈ keywords, k.1 ∉ leafKeywords)
    (properties : keywords.lookup "properties" = some (.object listedSchemas))
    (required : keywords.lookup "required" =
      if names.isEmpty then none else some (.array (names.map .string)))
    (additional : keywords.lookup "additionalProperties" = some (.bool extra))
    (items : keywords.lookup "items" = none) (v : Value) :
    Valid leaf (.object keywords) v ↔ ∃ fields, v = .object fields ∧
      (∀ name ∈ names, name ∈ fields.map Prod.fst) ∧
      (∀ m ∈ fields, ∀ schema, listedSchemas.lookup m.1 = some schema → Valid leaf schema m.2) ∧
      (∀ m ∈ fields, listedSchemas.lookup m.1 = none → extra = true) := by
  have same : listed keywords = listedSchemas := by simp [listed, properties, Value.asObject?]
  constructor
  · rintro (_ | ⟨typed, -, required', properties', additional', -⟩)
    obtain ⟨fields, rfl⟩ := (object_mem_types_iff v).1 (typed "object" type)
    rw [same] at properties' additional'
    refine ⟨fields, rfl, ?_, properties' fields rfl, ?_⟩
    · intro name mem
      have present : names.isEmpty = false := by
        cases names with
        | nil => simp at mem
        | cons _ _ => rfl
      exact required' (names.map .string) (by simp [required, present]) fields rfl name
        (List.mem_map.2 ⟨name, mem, rfl⟩)
    · intro m mem unlisted
      exact (valid_bool_iff leaf extra m.2).1 (additional' _ additional fields rfl m mem unlisted)
  · rintro ⟨fields, rfl, hrequired, hproperties, hadditional⟩
    refine .keywords ?_ ?_ ?_ ?_ ?_ ?_
    · intro word hword
      obtain rfl : "object" = word := by simpa [type] using hword
      exact (object_mem_types_iff _).2 ⟨fields, rfl⟩
    · exact fun k mem isLeaf => absurd isLeaf (leaves k mem)
    · rintro _ hnames _ ⟨⟩ name mem
      cases hempty : names.isEmpty with
      | true => simp [required, hempty] at hnames
      | false =>
        obtain rfl : names.map Value.string = _ := by simpa [required, hempty] using hnames
        obtain ⟨name', mem', ⟨⟩⟩ := List.mem_map.1 mem
        exact hrequired name mem'
    · rintro _ ⟨⟩ m mem schema
      rw [same]
      exact hproperties m mem schema
    · rintro schema hschema _ ⟨⟩ m mem
      obtain rfl : Value.bool extra = schema := by simpa [additional] using hschema
      rw [same, valid_bool_iff]
      exact hadditional m mem
    · intro schema hschema
      simp [items] at hschema

theorem valid_flat_iff {keywords : List (String × Value)} {word : String}
    (type : keywords.lookup "type" = some (.string word))
    (properties : keywords.lookup "properties" = none)
    (required : keywords.lookup "required" = none)
    (additional : keywords.lookup "additionalProperties" = none) (v : Value) :
    Valid leaf (.object keywords) v ↔ word ∈ types v ∧
      (∀ k ∈ keywords, k.1 ∈ leafKeywords → leaf k.1 k.2 v) ∧
      (∀ schema, keywords.lookup "items" = some schema →
        ∀ elements, v = .array elements → ∀ x ∈ elements, Valid leaf schema x) := by
  have none_listed : listed keywords = [] := by simp [listed, properties]
  constructor
  · rintro (_ | ⟨typed, leaves', -, -, -, items'⟩)
    exact ⟨typed word type, leaves', items'⟩
  · rintro ⟨htype, hleaves, hitems⟩
    refine .keywords ?_ hleaves ?_ ?_ ?_ hitems
    · intro word' hword
      obtain rfl : word = word' := by simpa [type] using hword
      exact htype
    · intro names hnames
      simp [required] at hnames
    · intro fields _ m _ schema found
      simp [none_listed] at found
    · intro schema hschema
      simp [additional] at hschema

end CredentialSchema.JsonSchema

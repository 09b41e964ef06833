import CredentialSchema.Proofs.Compile.Validity
import CredentialSchema.Proofs.Property.Subtree

/-!
The schema pass preserves meaning. `Conforms` reads a tree directly as a description of values:
of several siblings with one name the first describes the attribute, while any of them can
require it. A value is valid against the compiled schema exactly if it conforms to the tree,
whatever the leaf keywords mean.
-/
namespace CredentialSchema

open Json (Value)

/-- The values that a kind stands for. -/
def Kind.Admits : Kind → Value → Prop
  | .string, .string _ => True
  | .integer, .number (.integer _) => True
  | .integer, .number (.float x) => x.toInt?.isSome
  | .number, .number _ => True
  | .boolean, .bool _ => True
  | .object, .object _ => True
  | .array, .array _ => True
  | _, _ => False

namespace Property

mutual
/-- The values that a property describes. -/
inductive Conforms (leaf : String → Value → Value → Prop) (extra : Bool) : Property → Value → Prop
  | object {d : Declaration} {ms : List Property} {e : Option Property}
    {fields : List (String × Value)} (kind : d.kind = .object)
    (level : ConformsLevel leaf extra ms fields) : Conforms leaf extra ⟨d, ms, e⟩ (.object fields)
  | array {d : Declaration} {ms : List Property} {e : Option Property} {elements : List Value}
    (kind : d.kind = .array) (each : ∀ p ∈ e, ∀ x ∈ elements, Conforms leaf extra p x) :
    Conforms leaf extra ⟨d, ms, e⟩ (.array elements)
  | leaf {d : Declaration} {ms : List Property} {e : Option Property} {v : Value}
    (kind : d.kind.isContainer = false) (type : d.kind.Admits v)
    (constraints : ∀ c ∈ d.constraints, ∀ k ∈ SchemaPass.constraintMembers d.kind c,
      leaf k.1 k.2 v) : Conforms leaf extra ⟨d, ms, e⟩ v

/-- The members that an object level with these children describes. -/
inductive ConformsLevel (leaf : String → Value → Value → Prop) (extra : Bool) :
    List Property → List (String × Value) → Prop
  | intro {children : List Property} {fields : List (String × Value)}
    (required : ∀ p ∈ children, p.decl.required → p.name ∈ fields.map Prod.fst)
    (declared : ∀ m ∈ fields, ∀ p ∈ children.find? fun p => p.name == m.1,
      Conforms leaf extra p m.2)
    (undeclared : ∀ m ∈ fields, (∀ p ∈ children, p.name ≠ m.1) → extra = true) :
    ConformsLevel leaf extra children fields
end

variable {leaf : String → Value → Value → Prop} {extra : Bool} {d : Declaration}
  {ms : List Property} {e : Option Property} {v : Value}

theorem conforms_object_iff (kind : d.kind = .object) :
    Conforms leaf extra ⟨d, ms, e⟩ v ↔
      ∃ fields, v = .object fields ∧ ConformsLevel leaf extra ms fields := by
  constructor
  · rintro (⟨-, level⟩ | ⟨isArray, -⟩ | ⟨isLeaf, -, -⟩)
    · exact ⟨_, rfl, level⟩
    · simp [kind] at isArray
    · simp [kind, Kind.isContainer] at isLeaf
  · rintro ⟨fields, rfl, level⟩
    exact .object kind level

theorem conforms_array_iff (kind : d.kind = .array) :
    Conforms leaf extra ⟨d, ms, e⟩ v ↔
      ∃ elements, v = .array elements ∧ ∀ p ∈ e, ∀ x ∈ elements, Conforms leaf extra p x := by
  constructor
  · rintro (⟨isObject, -⟩ | ⟨-, each⟩ | ⟨isLeaf, -, -⟩)
    · simp [kind] at isObject
    · exact ⟨_, rfl, each⟩
    · simp [kind, Kind.isContainer] at isLeaf
  · rintro ⟨elements, rfl, each⟩
    exact .array kind each

theorem conforms_leaf_iff (kind : d.kind.isContainer = false) :
    Conforms leaf extra ⟨d, ms, e⟩ v ↔
      d.kind.Admits v ∧ ∀ c ∈ d.constraints, ∀ k ∈ SchemaPass.constraintMembers d.kind c,
        leaf k.1 k.2 v := by
  constructor
  · rintro (⟨isObject, -⟩ | ⟨isArray, -⟩ | ⟨-, type, constraints⟩)
    · simp [isObject, Kind.isContainer] at kind
    · simp [isArray, Kind.isContainer] at kind
    · exact ⟨type, constraints⟩
  · rintro ⟨type, constraints⟩
    exact .leaf kind type constraints

end Property

/-- The values that a tree describes: objects whose members its top level describes. -/
def Tree.Conforms (leaf : String → Value → Value → Prop) (extra : Bool) (t : Tree)
    (v : Value) : Prop :=
  ∃ fields, v = .object fields ∧ Property.ConformsLevel leaf extra t.roots fields

namespace SchemaPass

open JsonSchema Property

theorem text_mem_types_iff (kind : Kind) (v : Value) : kind.text ∈ types v ↔ kind.Admits v := by
  cases v with
  | number n =>
    cases n with
    | integer n => cases kind <;> simp [types, Kind.text, Kind.Admits]
    | float x =>
      by_cases whole : x.toInt?.isSome <;>
        cases kind <;> simp [types, Kind.text, Kind.Admits, whole]
  | _ => cases kind <;> simp [types, Kind.text, Kind.Admits]

theorem mem_member_iff (keyword : String) (value : Option Value) (k : String × Value) :
    k ∈ member keyword value ↔ ∃ v, value = some v ∧ k = (keyword, v) := by
  cases value <;> simp [member]

theorem keyword_of_mem_member {keyword : String} {value : Option Value} {k : String × Value}
    (h : k ∈ member keyword value) : k.1 = keyword := by
  obtain ⟨v, -, rfl⟩ := (mem_member_iff keyword value k).1 h
  rfl

theorem keyword_of_mem_heading {type : String} {title description : Option String}
    {k : String × Value} (h : k ∈ heading type title description) :
    k.1 ∈ ["type", "title", "description"] := by
  simp only [heading, List.cons_append, List.mem_cons, List.mem_append] at h
  rcases h with rfl | h | h
  · simp
  · simp [keyword_of_mem_member h]
  · simp [keyword_of_mem_member h]

theorem mem_of_mem_heading_append {type : String} {title description : Option String}
    {rest : List (String × Value)} {k : String × Value}
    (h : k ∈ heading type title description ++ rest) (isLeaf : k.1 ∈ leafKeywords) :
    k ∈ rest := by
  refine (List.mem_append.1 h).resolve_left fun mem => ?_
  have key := keyword_of_mem_heading mem
  simp only [List.mem_cons, List.not_mem_nil, or_false] at key
  rcases key with key | key | key <;> exact absurd (key ▸ isLeaf) (by decide)

theorem keyword_of_mem_constraintMembers {kind : Kind} {c : Constraints} {k : String × Value}
    (h : k ∈ constraintMembers kind c) : k.1 ∈ leafKeywords := by
  have keyword (name : String) (value : Option Value) (h : k ∈ member name value)
      (isLeaf : name ∈ leafKeywords) : k.1 ∈ leafKeywords := keyword_of_mem_member h ▸ isLeaf
  simp only [constraintMembers, List.mem_append] at h
  rcases h with (h | h) | h
  · cases kind with
    | string =>
      simp only [List.mem_append] at h
      rcases h with (h | h) | h <;> exact keyword _ _ h (by decide)
    | integer =>
      simp only [List.mem_append] at h
      rcases h with h | h <;> exact keyword _ _ h (by decide)
    | number =>
      simp only [List.mem_append] at h
      rcases h with (h | h) | h <;> exact keyword _ _ h (by decide)
    | boolean | object | array => cases h
  · exact keyword _ _ h (by decide)
  · split at h
    · cases h
    · obtain rfl := List.mem_singleton.1 h
      simp [leafKeywords]

theorem lookup_eq_none {keys : List String} {members : List (String × Value)} {name : String}
    (h : ∀ k ∈ members, k.1 ∈ keys) (absent : name ∉ keys) : members.lookup name = none := by
  refine List.lookup_eq_none_iff.2 fun k mem => ?_
  have other : name ≠ k.1 := fun same => absent (same ▸ h k mem)
  simpa using other

theorem lookup_heading_append {name : String} (type : String) (title description : Option String)
    (rest : List (String × Value)) (other : name ∉ ["type", "title", "description"]) :
    (heading type title description ++ rest).lookup name = rest.lookup name := by
  rw [List.lookup_append, lookup_eq_none (fun _ => keyword_of_mem_heading) other, Option.none_or]

theorem lookup_heading_append_eq_none {keys : List String} {rest : List (String × Value)}
    {name : String} (type : String) (title description : Option String)
    (h : ∀ k ∈ rest, k.1 ∈ keys) (absent : name ∉ ["type", "title", "description"] ++ keys) :
    (heading type title description ++ rest).lookup name = none := by
  simp only [List.mem_append, not_or] at absent
  rw [lookup_heading_append type title description rest absent.1]
  exact lookup_eq_none h absent.2

theorem lookup_type_heading_append (type : String) (title description : Option String)
    (rest : List (String × Value)) :
    (heading type title description ++ rest).lookup "type" = some (.string type) := by
  simp [heading]

theorem lookup_children (extra : Bool) (path : String) (taken : List String) (ps : List Property)
    (name : String) :
    (children extra path taken ps).1.lookup name =
      if name ∈ taken then none
      else (ps.find? fun p => p.name == name).map fun p =>
        (property extra (Warning.childPath path p.name) p).1 := by
  induction ps generalizing taken with
  | nil => simp [children]
  | cons p ps ih =>
    rw [children]
    by_cases repeated : p.name ∈ taken
    · simp only [List.contains_iff_mem, if_pos repeated, ih taken]
      by_cases before : name ∈ taken
      · simp only [if_pos before]
      · have other : (p.name == name) = false := by
          refine beq_eq_false_iff_ne.2 ?_
          rintro rfl
          exact before repeated
        simp only [if_neg before, List.find?_cons, other]
    · simp only [List.contains_iff_mem, if_neg repeated, List.lookup_cons, ih (p.name :: taken)]
      by_cases same : name = p.name
      · subst same
        simp [repeated]
      · have other : (p.name == name) = false := beq_eq_false_iff_ne.2 (Ne.symm same)
        have otherKey : (name == p.name) = false := beq_eq_false_iff_ne.2 same
        simp [same, other, otherKey]

theorem mem_requiredNames_iff (children : List Property) (name : String) :
    name ∈ requiredNames children ↔ ∃ p ∈ children, p.decl.required ∧ p.name = name := by
  simp [requiredNames, List.mem_eraseDups, and_assoc]

theorem keyword_of_mem_levelMembers {extra : Bool} {ms : List Property}
    {properties : List (String × Value)} {k : String × Value}
    (h : k ∈ levelMembers extra ms properties) :
    k.1 ∈ ["properties", "required", "additionalProperties"] := by
  simp only [levelMembers, List.cons_append, List.mem_cons, List.mem_append] at h
  rcases h with rfl | h | h
  · simp
  · split at h <;> simp_all
  · simp_all

theorem lookup_required_levelMembers (extra : Bool) (ms : List Property)
    (properties : List (String × Value)) :
    (levelMembers extra ms properties).lookup "required" =
      if (requiredNames ms).isEmpty then none
      else some (.array ((requiredNames ms).map .string)) := by
  cases h : (requiredNames ms).isEmpty <;>
    simp [levelMembers, h, List.lookup_cons]

theorem lookup_additional_levelMembers (extra : Bool) (ms : List Property)
    (properties : List (String × Value)) :
    (levelMembers extra ms properties).lookup "additionalProperties" = some (.bool extra) := by
  cases h : (requiredNames ms).isEmpty <;>
    simp [levelMembers, h, List.lookup_cons]

variable {leaf : String → Value → Value → Prop} {extra : Bool}

theorem valid_level_iff_conforms {ms : List Property} (path : String)
    (title description : Option String)
    (ih : ∀ p ∈ ms, ∀ path v, Valid leaf (property extra path p).1 v ↔ p.Conforms leaf extra v)
    (v : Value) :
    Valid leaf (.object (heading "object" title description ++
        levelMembers extra ms (children extra path [] ms).1)) v ↔
      ∃ fields, v = .object fields ∧ ConformsLevel leaf extra ms fields := by
  let schemas := (children extra path [] ms).1
  have found (name : String) : schemas.lookup name =
      (ms.find? fun p => p.name == name).map fun p =>
        (property extra (Warning.childPath path p.name) p).1 := by
    simp [schemas, lookup_children]
  have keyword (k : String × Value)
      (mem : k ∈ heading "object" title description ++ levelMembers extra ms schemas) :
      k.1 ∉ leafKeywords := by
    intro isLeaf
    have key := keyword_of_mem_levelMembers (mem_of_mem_heading_append mem isLeaf)
    simp only [List.mem_cons, List.not_mem_nil, or_false] at key
    rcases key with key | key | key <;> exact absurd (key ▸ isLeaf) (by decide)
  have below (name : String) (other : name ∉ ["type", "title", "description"]) :=
    lookup_heading_append "object" title description (levelMembers extra ms schemas) other
  have level := valid_level_iff leaf (lookup_type_heading_append "object" _ _ _) keyword
    ((below "properties" (by decide)).trans rfl)
    ((below "required" (by decide)).trans (lookup_required_levelMembers extra ms schemas))
    ((below "additionalProperties" (by decide)).trans
      (lookup_additional_levelMembers extra ms schemas))
    (lookup_heading_append_eq_none "object" title description
      (fun _ => keyword_of_mem_levelMembers) (by decide)) v
  rw [level]
  refine exists_congr fun fields => and_congr_right fun _ => ?_
  constructor
  · rintro ⟨required, declared, undeclared⟩
    refine .intro ?_ ?_ ?_
    · intro p mem isRequired
      exact required p.name ((mem_requiredNames_iff ms p.name).2 ⟨p, mem, isRequired, rfl⟩)
    · intro m mem p first
      have schema : schemas.lookup m.1 =
          some (property extra (Warning.childPath path p.name) p).1 := by
        rw [found, Option.mem_def.1 first, Option.map_some]
      exact (ih p (List.mem_of_find?_eq_some first) _ m.2).1 (declared m mem _ schema)
    · intro m mem absent
      have unlisted : ms.find? (fun p => p.name == m.1) = none :=
        List.find?_eq_none.2 fun p hp => by simpa using absent p hp
      exact undeclared m mem (by rw [found, unlisted, Option.map_none])
  · rintro ⟨required, declared, undeclared⟩
    refine ⟨?_, ?_, ?_⟩
    · intro name mem
      obtain ⟨p, hp, isRequired, rfl⟩ := (mem_requiredNames_iff ms name).1 mem
      exact required p hp isRequired
    · intro m mem schema listed
      rw [found, Option.map_eq_some_iff] at listed
      obtain ⟨p, first, rfl⟩ := listed
      exact (ih p (List.mem_of_find?_eq_some first) _ m.2).2 (declared m mem p first)
    · intro m mem unlisted
      rw [found, Option.map_eq_none_iff, List.find?_eq_none] at unlisted
      exact undeclared m mem fun p hp => by simpa using unlisted p hp

theorem valid_leaf_iff (leaf : String → Value → Value → Prop) (kind : Kind)
    (title description : Option String) (constraints : Option Constraints) (v : Value) :
    Valid leaf (.object (heading kind.text title description ++
        (constraints.map (constraintMembers kind)).getD [])) v ↔
      kind.Admits v ∧ ∀ c ∈ constraints, ∀ k ∈ constraintMembers kind c, leaf k.1 k.2 v := by
  have keyword : ∀ k ∈ (constraints.map (constraintMembers kind)).getD [],
      k.1 ∈ leafKeywords := by
    cases constraints with
    | none => exact nofun
    | some c => exact fun _ => keyword_of_mem_constraintMembers
  have absent (name : String) (other : name ∉ ["type", "title", "description"] ++ leafKeywords) :=
    lookup_heading_append_eq_none kind.text title description keyword other
  have flat := valid_flat_iff leaf (lookup_type_heading_append kind.text title description _)
    (absent "properties" (by decide)) (absent "required" (by decide))
    (absent "additionalProperties" (by decide)) v
  rw [flat, text_mem_types_iff, absent "items" (by decide)]
  refine and_congr_right fun _ => ⟨?_, ?_⟩
  · rintro ⟨leaves, -⟩ c given k mem
    obtain rfl := Option.mem_def.1 given
    exact leaves k (List.mem_append_right _ mem) (keyword_of_mem_constraintMembers mem)
  · intro applied
    refine ⟨fun k mem isLeafKeyword => ?_, nofun⟩
    have given := mem_of_mem_heading_append mem isLeafKeyword
    cases constraints with
    | none => cases given
    | some c => exact applied c rfl k given

theorem valid_array_iff {e : Option Property} (path : String) (d : Declaration)
    (title description : Option String)
    (ih : ∀ p ∈ e, ∀ path v, Valid leaf (property extra path p).1 v ↔ p.Conforms leaf extra v)
    (v : Value) :
    Valid leaf (.object (heading "array" title description ++ (element extra path d e).1)) v ↔
      ∃ elements, v = .array elements ∧ ∀ p ∈ e, ∀ x ∈ elements, p.Conforms leaf extra x := by
  have keyword : ∀ k ∈ (element extra path d e).1, k.1 ∈ ["items"] := by
    cases e <;> simp [element]
  have absent (name : String) (other : name ∉ ["type", "title", "description"] ++ ["items"]) :=
    lookup_heading_append_eq_none "array" title description keyword other
  have items := lookup_heading_append "array" title description (element extra path d e).1
    (by decide : "items" ∉ _)
  have keyless (k : String × Value)
      (mem : k ∈ heading "array" title description ++ (element extra path d e).1)
      (isLeaf : k.1 ∈ leafKeywords) : leaf k.1 k.2 v := by
    have key := List.mem_singleton.1 (keyword k (mem_of_mem_heading_append mem isLeaf))
    exact absurd (key ▸ isLeaf) (by decide)
  have flat := valid_flat_iff leaf (lookup_type_heading_append "array" title description _)
    (absent "properties" (by decide)) (absent "required" (by decide))
    (absent "additionalProperties" (by decide)) v
  rw [flat, items, array_mem_types_iff]
  constructor
  · rintro ⟨⟨elements, rfl⟩, -, each⟩
    refine ⟨elements, rfl, fun p given x mem => ?_⟩
    obtain rfl := Option.mem_def.1 given
    exact (ih p given _ x).1 (each _ (by simp [SchemaPass.element]; rfl) elements rfl x mem)
  · rintro ⟨elements, rfl, each⟩
    refine ⟨⟨elements, rfl⟩, keyless, ?_⟩
    rintro schema found _ ⟨⟩ x mem
    cases e with
    | none => simp [SchemaPass.element] at found
    | some p =>
      simp only [SchemaPass.element, List.lookup_cons, beq_self_eq_true, Option.some.injEq] at found
      obtain rfl := found
      exact (ih p rfl _ x).2 (each p rfl x mem)

theorem valid_property_iff (p : Property) (path : String) (v : Value) :
    Valid leaf (property extra path p).1 v ↔ p.Conforms leaf extra v := by
  induction p using Property.induct generalizing path v with
  | node d ms e members element =>
    cases kind : d.kind with
    | object =>
      rw [conforms_object_iff kind]
      simp only [property, kind]
      exact valid_level_iff_conforms path d.displayName d.description members v
    | array =>
      rw [conforms_array_iff kind]
      simp only [property, kind]
      exact valid_array_iff path d d.displayName d.description element v
    | string | integer | number | boolean =>
      have isLeaf : d.kind.isContainer = false := by simp [kind, Kind.isContainer]
      have flat := valid_leaf_iff leaf d.kind d.displayName d.description d.constraints v
      rw [conforms_leaf_iff isLeaf, ← flat]
      simp only [property, kind]

/-- The schema of a tree accepts exactly the values that the tree describes. -/
theorem valid_compile_iff (leaf : String → Value → Value → Prop) (t : Tree) (m : Metadata)
    (v : Value) :
    Valid leaf (compile t m).document v ↔ t.Conforms leaf m.additionalProperties v :=
  valid_level_iff_conforms "" (some m.title) m.description (fun p _ => valid_property_iff p) v

end SchemaPass
end CredentialSchema

import CredentialSchema.Check.Keyword
import CredentialSchema.Proofs.Compile.Conformance
import CredentialSchema.Proofs.Compile.Sites

/-!
The language of compiled schemas. Whatever a tree holds, the schema pass writes members of a few
shapes only, which `Keyword` lists: lengths are counts, a step is above zero, a required name stands
once, and neither a name nor a listed value ever becomes a keyword. A schema has such members and in
them schemas again. What reads compiled schemas is proved by cases on this language, and only this
module looks at how the pass writes it.
-/
namespace CredentialSchema.SchemaPass

open Json (Value)

/-- A member of a compiled schema, the schemas in it left aside. -/
inductive Keyword : String × Value → Prop
  | type (kind : Kind) : Keyword ("type", .string kind.text)
  | remark {k : String} (key : k ∈ ["title", "description", "format"]) (s : String) :
    Keyword (k, .string s)
  | count {k : String} (key : k ∈ ["minLength", "maxLength"]) (n : Nat) : Keyword (k, .ofNat n)
  | bound {k : String} (key : k ∈ ["minimum", "maximum"]) (n : Json.Number) :
    Keyword (k, .number n)
  | step {n : Json.Number} (positive : SchemaCheck.isPositive n = true) :
    Keyword ("multipleOf", .number n)
  | pattern (s : String) : Keyword ("pattern", .string s)
  | choices (vs : List Value) : Keyword ("enum", .array vs)
  | properties (ms : List (String × Value)) : Keyword ("properties", .object ms)
  | required {names : List String} (nodup : names.Nodup) :
    Keyword ("required", .array (names.map .string))
  | additional (extra : Bool) : Keyword ("additionalProperties", .bool extra)
  | items (ms : List (String × Value)) : Keyword ("items", .object ms)

def keys : List String :=
  ["type", "title", "description"] ++ JsonSchema.leafKeywords ++
    ["properties", "required", "additionalProperties", "items"]

theorem key_of_keyword {m : String × Value} (h : Keyword m) : m.1 ∈ keys := by
  cases h with
  | remark key _ => exact (by decide : ["title", "description", "format"] ⊆ keys) key
  | count key _ => exact (by decide : ["minLength", "maxLength"] ⊆ keys) key
  | bound key _ => exact (by decide : ["minimum", "maximum"] ⊆ keys) key
  | type | step | pattern | choices | properties | required | additional | items =>
    simp [keys, JsonSchema.leafKeywords]

def inner : String × Value → List Value
  | ("properties", .object ms) => ms.map Prod.snd
  | ("items", v) => [v]
  | _ => []

/-- A schema in the language of compiled schemas. -/
inductive IsSchema : Value → Prop
  | bool (b : Bool) : IsSchema (.bool b)
  | object {ms : List (String × Value)} (keyword : ∀ m ∈ ms, Keyword m)
    (below : ∀ v ∈ ms.flatMap inner, IsSchema v) : IsSchema (.object ms)

theorem depth_le_depthMembers {ms : List (String × Value)} :
    ∀ m ∈ ms, m.2.depth ≤ Value.depthMembers ms := by
  induction ms with
  | nil => exact List.forall_mem_nil _
  | cons m ms ih =>
    rw [List.forall_mem_cons, Value.depthMembers]
    exact ⟨Nat.le_max_left _ _, fun n mem => Nat.le_trans (ih n mem) (Nat.le_max_right _ _)⟩

theorem depth_lt_of_mem_inner {ms : List (String × Value)} {v : Value} (h : v ∈ ms.flatMap inner) :
    v.depth < (Value.object ms).depth := by
  obtain ⟨m, mem, isInner⟩ := List.mem_flatMap.1 h
  refine Nat.lt_succ_of_le (Nat.le_trans ?_ (depth_le_depthMembers m mem))
  rw [inner.eq_def] at isInner
  split at isInner
  · obtain ⟨n, mem, rfl⟩ := List.mem_map.1 isInner
    exact Nat.le_succ_of_le (depth_le_depthMembers n mem)
  · exact Nat.le_of_eq (congrArg Value.depth (List.mem_singleton.1 isInner))
  · cases isInner

theorem toInt?_pos {x : Binary64} (positive : x.isPositive = true) {n : Int}
    (whole : x.toInt? = some n) : 0 < n := by
  simp only [Binary64.isPositive, Bool.and_eq_true, Bool.not_eq_true', bne_iff_ne] at positive
  obtain ⟨sign, notZero⟩ := positive
  simp only [Binary64.toInt?, sign, Bool.false_eq_true, if_false] at whole
  split at whole
  · next divides =>
    obtain rfl := Option.some.inj whole
    have quotient := Nat.div_pos
      (Nat.le_of_dvd (Nat.pos_of_ne_zero notZero) (Nat.dvd_of_mod_eq_zero divides))
      (Nat.pow_pos Nat.two_pos)
    exact Int.natCast_pos.2 (Nat.mul_pos quotient (Nat.pow_pos Nat.two_pos))
  · cases whole

theorem exists_boundValue? {b : Bound} {v : Value} (h : boundValue? b = some v) :
    ∃ x n, b = .finite x ∧ v = .number n ∧
      (x.isPositive = true → SchemaCheck.isPositive n = true) := by
  cases b with
  | finite x =>
    obtain rfl := Option.some.inj h
    dsimp only
    split
    · next n whole =>
      split
      · exact ⟨x, _, rfl, rfl, fun positive => decide_eq_true (toInt?_pos positive whole)⟩
      · exact ⟨x, _, rfl, rfl, id⟩
    · exact ⟨x, _, rfl, rfl, id⟩
  | infinite | undefined => cases h

theorem exists_stepValue? {places : UInt32} {v : Value} (h : stepValue? places = some v) :
    ∃ n, v = .number n ∧ SchemaCheck.isPositive n = true := by
  rw [stepValue?] at h
  split at h
  · obtain ⟨x, -, h⟩ := Option.bind_eq_some_iff.1 h
    split at h
    · next positive =>
      obtain ⟨_, n, ⟨⟩, rfl, kept⟩ := exists_boundValue? h
      exact ⟨n, rfl, kept positive⟩
    · cases h
  · cases h

theorem keyword_member_map {α : Type} {key : String} {f : α → Value}
    (h : ∀ a, Keyword (key, f a)) (o : Option α) : ∀ m ∈ member key (o.map f), Keyword m := by
  cases o with
  | none => exact List.forall_mem_nil _
  | some a => exact List.forall_mem_singleton.2 (h a)

theorem keyword_member_bind {α : Type} {key : String} {f : α → Option Value}
    (h : ∀ a v, f a = some v → Keyword (key, v)) (o : Option α) :
    ∀ m ∈ member key (o.bind f), Keyword m := by
  intro m mem
  obtain ⟨v, given, rfl⟩ := (mem_member_iff key (o.bind f) m).1 mem
  obtain ⟨a, -, written⟩ := Option.bind_eq_some_iff.1 given
  exact h a v written

theorem keyword_heading (kind : Kind) (title description : Option String) :
    ∀ m ∈ heading kind.text title description, Keyword m := by
  rw [heading, List.cons_append, List.forall_mem_cons, List.forall_mem_append]
  refine ⟨.type kind, ?_, ?_⟩
  · exact keyword_member_map (.remark (by decide)) (Text.present title)
  · exact keyword_member_map (.remark (by decide)) (Text.present description)

theorem keyword_constraintMembers (kind : Kind) (c : Constraints) :
    ∀ m ∈ constraintMembers kind c, Keyword m := by
  have count {key : String} (isCount : key ∈ ["minLength", "maxLength"]) (n : Option UInt64) :
      ∀ m ∈ member key (n.map fun n => .ofNat n.toNat), Keyword m :=
    keyword_member_map (fun n => .count isCount n.toNat) n
  have bound {key : String} (isBound : key ∈ ["minimum", "maximum"]) (b : Option Bound) :
      ∀ m ∈ member key (b.bind boundValue?), Keyword m := by
    refine keyword_member_bind (fun b v written => ?_) b
    obtain ⟨-, n, -, rfl, -⟩ := exists_boundValue? written
    exact .bound isBound n
  have step : ∀ m ∈ member "multipleOf" (c.precision.bind stepValue?), Keyword m := by
    refine keyword_member_bind (fun places v written => ?_) c.precision
    obtain ⟨n, rfl, positive⟩ := exists_stepValue? written
    exact .step positive
  have choices : ∀ m ∈ (if c.choices.isEmpty then [] else [("enum", Value.array c.choices)]),
      Keyword m := by
    split
    · exact List.forall_mem_nil _
    · exact List.forall_mem_singleton.2 (.choices c.choices)
  simp only [constraintMembers, List.forall_mem_append]
  refine ⟨⟨?_, keyword_member_map (.remark (by decide)) c.format⟩, choices⟩
  cases kind with
  | string =>
    simp only [List.forall_mem_append]
    refine ⟨⟨count ?_ c.minLength, count ?_ c.maxLength⟩, keyword_member_map .pattern c.pattern⟩
    all_goals decide
  | integer =>
    simp only [List.forall_mem_append]
    exact ⟨bound (by decide) c.minimum, bound (by decide) c.maximum⟩
  | number =>
    simp only [List.forall_mem_append]
    exact ⟨⟨bound (by decide) c.minimum, bound (by decide) c.maximum⟩, step⟩
  | boolean | object | array => exact List.forall_mem_nil _

theorem keyword_levelMembers (extra : Bool) (ms : List Property)
    (properties : List (String × Value)) :
    ∀ m ∈ levelMembers extra ms properties, Keyword m := by
  rw [levelMembers, List.cons_append, List.forall_mem_cons, List.forall_mem_append,
    List.forall_mem_singleton]
  refine ⟨.properties properties, ?_, .additional extra⟩
  split
  · exact List.forall_mem_nil _
  · exact List.forall_mem_singleton.2 (.required (nodup_eraseDups _))

theorem flatMap_inner_heading (kind : Kind) (title description : Option String) :
    (heading kind.text title description).flatMap inner = [] := by
  refine List.flatMap_eq_nil_iff.2 fun (k, v) mem => ?_
  have key := keyword_of_mem_heading mem
  simp only [List.mem_cons, List.not_mem_nil, or_false] at key
  rcases key with rfl | rfl | rfl <;> rfl

theorem flatMap_inner_constraintMembers (kind : Kind) (c : Constraints) :
    (constraintMembers kind c).flatMap inner = [] := by
  refine List.flatMap_eq_nil_iff.2 fun (k, v) mem => ?_
  have key := keyword_of_mem_constraintMembers mem
  simp only [JsonSchema.leafKeywords, List.mem_cons, List.not_mem_nil, or_false] at key
  rcases key with rfl | rfl | rfl | rfl | rfl | rfl | rfl | rfl <;> rfl

theorem flatMap_inner_levelMembers (extra : Bool) (ms : List Property)
    (properties : List (String × Value)) :
    (levelMembers extra ms properties).flatMap inner = properties.map Prod.snd := by
  rw [levelMembers, List.cons_append, List.flatMap_cons, List.flatMap_append]
  split <;> simp [inner]

/-- The pattern that the schema gives to a property. -/
def pattern? (p : Property) : Option String :=
  if p.kind = .string then p.decl.constraints.bind (·.pattern) else none

/-- The patterns in the schema of a tree. -/
def patterns (t : Tree) : List String :=
  (memberSites t.roots).filterMap fun s => pattern? s.property

/-- A compiled schema, by its pattern and the properties whose schemas it holds. -/
inductive Shows (extra : Bool) (pattern : Option String) (below : List Property) : Value → Prop
  | object {ms : List (String × Value)} (keyword : ∀ m ∈ ms, Keyword m)
    (pattern_iff : ∀ s, ("pattern", .string s) ∈ ms ↔ pattern = some s)
    (location : Property → String)
    (held : ms.flatMap inner = below.map fun p => (property extra (location p) p).1) :
    Shows extra pattern below (.object ms)

variable {extra : Bool}

theorem shows_level (ms : List Property) (title description : Option String) (location : String) :
    Shows extra none (firsts ms) (.object (heading "object" title description ++
      levelMembers extra ms (children extra location [] ms).1)) := by
  refine .object ?_ ?_ (fun p => Warning.childPath location p.name) ?_
  · exact List.forall_mem_append.2 ⟨keyword_heading .object title description,
      keyword_levelMembers extra ms _⟩
  · refine fun s => iff_of_false (fun mem => ?_) (Option.some_ne_none s).symm
    rcases List.mem_append.1 mem with mem | mem
    · exact absurd (keyword_of_mem_heading mem) (by simp)
    · exact absurd (keyword_of_mem_levelMembers mem) (by simp)
  · have head := flatMap_inner_heading .object title description
    rw [Kind.text] at head
    rw [List.flatMap_append, head, List.nil_append, flatMap_inner_levelMembers,
      fst_children_nil, List.map_map]
    rfl

theorem pattern_mem_constraintMembers (kind : Kind) (c : Constraints) (s : String) :
    ("pattern", .string s) ∈ constraintMembers kind c ↔ kind = .string ∧ c.pattern = some s := by
  cases kind <;> cases empty : c.choices.isEmpty <;>
    simp [constraintMembers, mem_member_iff, empty]

theorem shows_flat {p : Property} {rest : List (String × Value)} (location : Property → String)
    (keyword : ∀ m ∈ rest, Keyword m)
    (pattern_iff : ∀ s, ("pattern", .string s) ∈ rest ↔ pattern? p = some s)
    (held : rest.flatMap inner = (shown p).map fun q => (property extra (location q) q).1) :
    Shows extra (pattern? p) (shown p)
      (.object (heading p.kind.text p.decl.displayName p.decl.description ++ rest)) := by
  refine .object ?_ ?_ location ?_
  · exact List.forall_mem_append.2 ⟨keyword_heading _ _ _, keyword⟩
  · intro s
    rw [List.mem_append, pattern_iff, or_iff_right]
    exact fun mem => absurd (keyword_of_mem_heading mem) (by simp)
  · rw [List.flatMap_append, flatMap_inner_heading, List.nil_append, held]

variable {d : Declaration} {ms : List Property} {e : Option Property}

theorem exists_property_eq (p : Property) (location : String) :
    ∃ ms, (property extra location p).1 = .object ms := by
  obtain ⟨d, ms, e⟩ := p
  cases kind : d.kind <;> simp only [property, kind] <;> exact ⟨_, rfl⟩

theorem shows_array (isArray : d.kind = .array) (location : String) :
    Shows extra (pattern? ⟨d, ms, e⟩) (shown ⟨d, ms, e⟩)
      (.object (heading d.kind.text d.displayName d.description ++
        (element extra location d e).1)) := by
  have noPattern : pattern? ⟨d, ms, e⟩ = none := by simp [pattern?, Property.kind, isArray]
  refine shows_flat (fun _ => Warning.elementPath location) ?_ ?_ ?_
  · cases e with
    | none => exact List.forall_mem_nil _
    | some p =>
      let location := Warning.elementPath location
      obtain ⟨keywords, isObject⟩ : ∃ ms, (property extra location p).1 = .object ms :=
        exists_property_eq p location
      have isItems : Keyword ("items", (property extra location p).1) :=
        isObject ▸ .items keywords
      exact List.forall_mem_singleton.2 isItems
  · cases e <;> simp [element, noPattern]
  · cases e <;> simp [element, shown, isArray, inner]

theorem shows_leaf (isLeaf : d.kind.isContainer = false) :
    Shows extra (pattern? ⟨d, ms, e⟩) (shown ⟨d, ms, e⟩)
      (.object (heading d.kind.text d.displayName d.description ++
        (d.constraints.map (constraintMembers d.kind)).getD [])) := by
  have nothing : shown ⟨d, ms, e⟩ = [] := by
    cases kind : d.kind <;> simp_all [shown, Kind.isContainer]
  refine shows_flat (fun _ => "") ?_ ?_ ?_
  · cases d.constraints with
    | none => exact List.forall_mem_nil _
    | some c => exact keyword_constraintMembers d.kind c
  · intro s
    cases given : d.constraints with
    | none => simp [pattern?, given]
    | some c => simp [pattern?, given, pattern_mem_constraintMembers]
  · rw [nothing]
    cases d.constraints with
    | none => rfl
    | some c => exact flatMap_inner_constraintMembers d.kind c

theorem shows_property (p : Property) (location : String) :
    Shows extra (pattern? p) (shown p) (property extra location p).1 := by
  obtain ⟨d, ms, e⟩ := p
  cases kind : d.kind with
  | object =>
    have noPattern : pattern? ⟨d, ms, e⟩ = none := by simp [pattern?, Property.kind, kind]
    rw [noPattern]
    simp only [property, kind, shown]
    exact shows_level ms d.displayName d.description location
  | array =>
    have array : Shows extra (pattern? ⟨d, ms, e⟩) _ _ := shows_array kind location
    simp only [property, kind]
    rwa [kind] at array
  | string | integer | number | boolean =>
    have isLeaf : d.kind.isContainer = false := by simp [kind, Kind.isContainer]
    have leaf : Shows extra (pattern? ⟨d, ms, e⟩) _ _ := shows_leaf isLeaf
    simp only [property, kind]
    rwa [kind] at leaf

theorem shows_compile (t : Tree) (m : Metadata) :
    Shows m.additionalProperties none (firsts t.roots) (compile t m).document :=
  shows_level t.roots (some m.title) m.description ""

theorem Shows.isSchema {pattern : Option String} {below : List Property} {v : Value}
    (h : Shows extra pattern below v)
    (ih : ∀ q ∈ below, ∀ location, IsSchema (property extra location q).1) : IsSchema v := by
  cases h with
  | object keyword _ location held =>
    refine .object keyword ?_
    rw [held, List.forall_mem_map]
    exact fun q mem => ih q mem (location q)

theorem isSchema_property (p : Property) (location : String) :
    IsSchema (property extra location p).1 := by
  induction p using shown_induct generalizing location with
  | node p ih => exact (shows_property p location).isSchema ih

theorem isSchema_compile (t : Tree) (m : Metadata) : IsSchema (compile t m).document :=
  (shows_compile t m).isSchema fun q _ => isSchema_property q

end CredentialSchema.SchemaPass

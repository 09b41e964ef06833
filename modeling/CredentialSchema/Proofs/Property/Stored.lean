import CredentialSchema.Proofs.Document.Limited
import CredentialSchema.Proofs.Hexadecimal
import CredentialSchema.Proofs.Json.Text
import CredentialSchema.Proofs.Property.Everywhere
import CredentialSchema.Property.Stored

/-!
Stored properties load again. What a property is written as has its fields in the order of the
record, so each is found where it is looked for. Only three of them nest: the members, the element
definition and the listed values. A property is therefore loaded as itself, if its stored form is
not nested beyond the limit, and else not at all; and its bounds have to be numbers, since no
other is written.
-/
namespace CredentialSchema

open Yaml (limited limitedItems limitedMembers)
open Json.Value

namespace Json.Value

theorem inRangeMembers_optional {name : String} {value : Option α} {write : α → Json.Value}
    (h : ∀ a ∈ value, (write a).InRange) : InRangeMembers (optionalMember name value write) := by
  cases value with
  | none => trivial
  | some a => exact ⟨h a rfl, trivial⟩

theorem inRangeMembers_unless {absent : Bool} {name : String} {v : Json.Value} (h : v.InRange) :
    InRangeMembers (if absent then [] else [(name, v)]) := by
  cases absent with
  | true => trivial
  | false => exact ⟨h, trivial⟩

theorem inRange_ofNat {n : Nat} (h : n < UInt64.size) : (ofNat n).InRange := by
  have bound : UInt64.size = 2 ^ 64 := rfl
  change -2 ^ 63 ≤ (n : Int) ∧ (n : Int) < 2 ^ 64
  omega

end Json.Value

/-- The listed values can be written and read again. -/
def Constraints.Storable (c : Constraints) : Prop := (Json.Value.array c.choices).Storable

structure Constraints.Finite (c : Constraints) : Prop where
  minimum : ∀ b ∈ c.minimum, b.isFinite = true
  maximum : ∀ b ∈ c.maximum, b.isFinite = true

namespace Constraints

theorem names_members (c : Constraints) : (c.members.map (·.1)).Sublist fieldNames := by
  simp only [members, List.map_append]
  exact (names_optionalMember ..).append (names_optionalMember ..)
    |>.append (names_optionalMember ..) |>.append (names_optionalMember ..)
    |>.append (names_optionalMember ..) |>.append (names_optionalMember ..)
    |>.append (names_optionalMember ..) |>.append (names_unless ..)

variable {c : Constraints}

theorem depth_members (c : Constraints) :
    depthMembers c.members =
      if c.choices.isEmpty then 0 else (Json.Value.array c.choices).depth := by
  have bound (b : Bound) : b.toJson.depth = 0 := by cases b <;> rfl
  rw [members]
  simp only [depthMembers_append, depthMembers_unless]
  rw [depthMembers_scalar _ _ fun _ => rfl, depthMembers_scalar _ _ fun _ => rfl,
    depthMembers_scalar _ _ bound, depthMembers_scalar _ _ bound,
    depthMembers_scalar _ _ fun _ => rfl, depthMembers_scalar _ _ fun _ => rfl,
    depthMembers_scalar _ _ fun _ => rfl]
  simp

theorem lookup_members (c : Constraints) (key : String) :
    c.members.lookup key =
      (((((((if key = "maxLength" then c.maxLength.map fun n => .ofNat n.toNat else none).or
      (if key = "minLength" then c.minLength.map fun n => .ofNat n.toNat else none)).or
      (if key = "minimum" then c.minimum.map Bound.toJson else none)).or
      (if key = "maximum" then c.maximum.map Bound.toJson else none)).or
      (if key = "precision" then c.precision.map fun n => .ofNat n.toNat else none)).or
      (if key = "pattern" then c.pattern.map .string else none)).or
      (if key = "format" then c.format.map .string else none)).or
      (if key = "enum" then if c.choices.isEmpty then none else some (.array c.choices)
        else none) := by
  simp only [members, List.lookup_append, lookup_optionalMember, lookup_unless]

theorem natBelow?_ofNat (levels : Nat) {n limit : Nat} (h : n < limit) :
    (limited levels (.ofValue (.ofNat n))).natBelow? limit = some n := by
  have bound : (0 : Int) ≤ n ∧ (n : Int) < limit := by omega
  change (if (0 : Int) ≤ n ∧ (n : Int) < limit then some (Int.toNat n) else none) = some n
  rw [if_pos bound, Int.toNat_natCast]

theorem bound?_toJson (levels : Nat) {b : Bound} (finite : b.isFinite = true) :
    (limited levels (.ofValue b.toJson)).isAbsent = false ∧
      (limited levels (.ofValue b.toJson)).bound? = some b := by
  cases b with
  | finite x => exact ⟨rfl, rfl⟩
  | infinite negative => simp [Bound.isFinite, Bound.number?] at finite
  | undefined => simp [Bound.isFinite, Bound.number?] at finite

theorem choices_written (storable : c.Storable) (levels : Nat) :
    (Fields.written levels c.members).withDefault "enum" [] (Document.list? Document.toValue?) =
      if depthMembers c.members ≤ levels then some c.choices else none := by
  have here : c.members.lookup "enum" =
      if c.choices.isEmpty then none else some (.array c.choices) := by
    simp [lookup_members]
  rw [depth_members]
  cases empty : c.choices.isEmpty with
  | true =>
    rw [empty, if_pos rfl] at here
    simp [Fields.withDefault, Fields.get?_written, here, List.isEmpty_iff.1 empty]
  | false =>
    rw [empty, if_neg (by decide)] at here
    rw [Fields.withDefault_written here, Document.list?_limited storable.distinct]
    simp

theorem ofDocument?_limited (storable : c.Storable) (finite : c.Finite) (levels : Nat) :
    ofDocument? (limited levels (.ofValue c.toJson)) =
      if c.toJson.depth ≤ levels then some c else none := by
  cases levels with
  | zero => simp [toJson, Document.ofValue, limited, ofDocument?, Document.fields?, depth]
  | succ levels =>
    have fields := Document.fields?_written c.names_members (by decide) levels
    have length (name : String) (value : Option UInt64)
        (here : c.members.lookup name = value.map fun n => .ofNat n.toNat) :
        (Fields.written levels c.members).optional name
          (fun d => (d.natBelow? UInt64.size).map UInt64.ofNat) = some value :=
      Fields.optional_written here
        fun n _ => ⟨rfl, by simp [natBelow?_ofNat levels n.toNat_lt_size]⟩
    have bound (name : String) (value : Option Bound)
        (here : c.members.lookup name = value.map Bound.toJson)
        (finite : ∀ b ∈ value, b.isFinite = true) :
        (Fields.written levels c.members).optional name Document.bound? = some value :=
      Fields.optional_written here fun b mem => bound?_toJson levels (finite b mem)
    have text (name : String) (value : Option String)
        (here : c.members.lookup name = value.map .string) :
        (Fields.written levels c.members).optional name Document.string? = some value :=
      Fields.optional_written here fun s _ => ⟨rfl, rfl⟩
    have precision : (Fields.written levels c.members).optional "precision"
        (fun d => (d.natBelow? UInt32.size).map UInt32.ofNat) = some c.precision := by
      have here : c.members.lookup "precision" = c.precision.map fun n => .ofNat n.toNat := by
        simp [lookup_members]
      exact Fields.optional_written here
        fun n _ => ⟨rfl, by simp [natBelow?_ofNat levels n.toNat_lt_size]⟩
    have choices := choices_written storable levels
    rw [toJson, Document.ofValue, limited, if_neg levels.succ_ne_zero, ofDocument?]
    simp only [Nat.add_sub_cancel, fields, Option.bind_eq_bind, Option.bind_some,
      length "maxLength" c.maxLength (by simp [lookup_members]),
      length "minLength" c.minLength (by simp [lookup_members]),
      bound "minimum" c.minimum (by simp [lookup_members]) finite.minimum,
      bound "maximum" c.maximum (by simp [lookup_members]) finite.maximum, precision,
      text "pattern" c.pattern (by simp [lookup_members]),
      text "format" c.format (by simp [lookup_members]), choices]
    simp only [depth, Nat.add_le_add_iff_right]
    split <;> rfl

theorem inRange_toJson (storable : c.Storable) : c.toJson.InRange := by
  have precision (n : UInt32) : (ofNat n.toNat).InRange :=
    inRange_ofNat (n.toNat_lt_size.trans (by decide))
  have bound (b : Bound) : b.toJson.InRange := by cases b <;> trivial
  simp only [toJson, InRange, members, inRangeMembers_append]
  exact ⟨⟨⟨⟨⟨⟨⟨inRangeMembers_optional fun n _ => inRange_ofNat n.toNat_lt_size,
    inRangeMembers_optional fun n _ => inRange_ofNat n.toNat_lt_size⟩,
    inRangeMembers_optional fun b _ => bound b⟩, inRangeMembers_optional fun b _ => bound b⟩,
    inRangeMembers_optional fun n _ => precision n⟩, inRangeMembers_optional fun _ _ => trivial⟩,
    inRangeMembers_optional fun _ _ => trivial⟩, inRangeMembers_unless storable.inRange⟩

end Constraints

def Property.Constrained (C : Constraints → Prop) (p : Property) : Prop :=
  ∀ c ∈ p.decl.constraints, C c

abbrev Property.Storable : Property → Prop := Constrained Constraints.Storable

abbrev Property.Finite : Property → Prop := Constrained Constraints.Finite

theorem Uuid.ofDocument?_toJson (u : Uuid) (levels : Nat) :
    ofDocument? (limited levels (.ofValue u.toJson)) = some u := by
  have text : (limited levels (.ofValue (.string u.text))).string? = some u.text := rfl
  rw [toJson, ofDocument?, text, Option.bind_some, parse?_text]

namespace Property

def storedMembers (p : Property) : List (String × Json.Value) :=
  p.decl.members ++
    (if p.members.isEmpty then [] else [("properties", .array (listToJson p.members))]) ++
    optionalMember "items" p.element toJson ++
    optionalMember "constraints" p.decl.constraints Constraints.toJson ++
    optionalMember "sourceVocabPropertyId" p.decl.source .string

theorem toJson_eq (p : Property) : p.toJson = .object p.storedMembers := by
  obtain ⟨d, ms, e⟩ := p
  cases e <;> rw [toJson] <;> rfl

theorem names_storedMembers (p : Property) :
    (p.storedMembers.map (·.1)).Sublist Declaration.fieldNames := by
  simp only [storedMembers, Declaration.members, List.map_append]
  exact ((List.Sublist.refl ["id", "name"]).append (names_optionalMember ..)
    |>.append (names_optionalMember ..) |>.append (List.Sublist.refl ["type", "required"]))
    |>.append (names_unless ..) |>.append (names_optionalMember ..)
    |>.append (names_optionalMember ..) |>.append (names_optionalMember ..)

theorem lookup_storedMembers (p : Property) (key : String) :
    p.storedMembers.lookup key =
      (((((((if key = "id" then some p.id.toJson
        else if key = "name" then some (.string p.name) else none).or
      (if key = "displayName" then p.decl.displayName.map .string else none)).or
      (if key = "description" then p.decl.description.map .string else none)).or
      (if key = "type" then some (.string p.kind.text)
        else if key = "required" then some (.bool p.decl.required) else none)).or
      (if key = "properties" then if p.members.isEmpty then none
        else some (.array (listToJson p.members)) else none)).or
      (if key = "items" then p.element.map toJson else none)).or
      (if key = "constraints" then p.decl.constraints.map Constraints.toJson else none)).or
      (if key = "sourceVocabPropertyId" then p.decl.source.map .string else none) := by
  simp only [storedMembers, Declaration.members, List.lookup_append, lookup_optionalMember,
    lookup_unless, lookup_member, List.lookup_nil]

theorem constraints_written (p : Property) (storable : p.Storable) (finite : p.Finite)
    (levels : Nat) :
    (Fields.written levels p.storedMembers).optional "constraints" Constraints.ofDocument? =
      if depthMembers (optionalMember "constraints" p.decl.constraints Constraints.toJson) ≤ levels
        then some p.decl.constraints else none := by
  have here : p.storedMembers.lookup "constraints" =
      p.decl.constraints.map Constraints.toJson := by
    simp [lookup_storedMembers]
  rw [Fields.optional, Fields.get?_written, here]
  cases given : p.decl.constraints with
  | none => simp [optionalMember, depthMembers]
  | some c =>
    have back := Constraints.ofDocument?_limited (storable c given)
      (finite c given) levels
    have present : (limited levels (.ofValue c.toJson)).isAbsent = false := by
      cases levels <;> rfl
    simp only [Option.map_some, Document.optional?, present, back, optionalMember, depthMembers,
      Nat.max_zero, Bool.false_eq_true, if_false]
    split <;> rfl

theorem ofFields?_written (p : Property) (storable : p.Storable) (finite : p.Finite)
    (levels : Nat) :
    Declaration.ofFields? (.written levels p.storedMembers) =
      if depthMembers (optionalMember "constraints" p.decl.constraints Constraints.toJson) ≤ levels
        then some p.decl else none := by
  have text (name : String) (value : Option String)
      (here : p.storedMembers.lookup name = value.map .string) :
      (Fields.written levels p.storedMembers).optional name Document.string? = some value :=
    Fields.optional_written here fun s _ => ⟨rfl, rfl⟩
  have id : (Fields.written levels p.storedMembers).required "id" PropertyId.ofDocument? =
      some p.id := by
    rw [Fields.required_written (v := p.id.toJson) (by simp [lookup_storedMembers])]
    rw [PropertyId.toJson, PropertyId.ofDocument?, Uuid.ofDocument?_toJson]
    rfl
  have name : (Fields.written levels p.storedMembers).withDefault "name" "" Document.string? =
      some p.name := by
    rw [Fields.withDefault_written (v := .string p.name) (by simp [lookup_storedMembers])]
    rfl
  have kind : (Fields.written levels p.storedMembers).withDefault "type" .string
      Kind.ofDocument? = some p.kind := by
    rw [Fields.withDefault_written (v := .string p.kind.text) (by simp [lookup_storedMembers])]
    exact Kind.ofText?_text p.kind
  have required : (Fields.written levels p.storedMembers).withDefault "required" false
      Document.bool? = some p.decl.required := by
    rw [Fields.withDefault_written (v := .bool p.decl.required) (by simp [lookup_storedMembers])]
    rfl
  rw [Declaration.ofFields?]
  simp only [id, name, text "displayName" p.decl.displayName (by simp [lookup_storedMembers]),
    text "description" p.decl.description (by simp [lookup_storedMembers]), kind, required,
    constraints_written p storable finite,
    text "sourceVocabPropertyId" p.decl.source (by simp [lookup_storedMembers]),
    Option.bind_eq_bind, Option.bind_some]
  split <;> rfl

theorem membersIn?_written (levels : Nat) (ms : List (String × Json.Value)) :
    membersIn? (limitedMembers levels (Document.ofMembers ms)) =
      match ms.lookup "properties" with
      | none => some []
      | some v => listOf? (limited levels (.ofValue v)) := by
  rw [Document.limitedMembers_ofMembers]
  induction ms with
  | nil => simp [membersIn?]
  | cons m ms ih =>
    obtain ⟨k, v⟩ := m
    by_cases same : "properties" = k
    · simp [membersIn?, Document.name?, same.symm]
    · simp [membersIn?, Document.name?, lookup_member, same, Ne.symm same, ih]

theorem elementIn?_written (levels : Nat) (ms : List (String × Json.Value)) :
    elementIn? (limitedMembers levels (Document.ofMembers ms)) =
      match ms.lookup "items" with
      | none => some none
      | some v => (limited levels (.ofValue v)).optional? ofDocument? := by
  rw [Document.limitedMembers_ofMembers]
  induction ms with
  | nil => simp [elementIn?]
  | cons m ms ih =>
    obtain ⟨k, v⟩ := m
    by_cases same : "items" = k
    · simp [elementIn?, Document.name?, same.symm, Document.optional?]
    · simp [elementIn?, Document.name?, lookup_member, same, Ne.symm same, ih]

theorem depth_storedMembers (p : Property) :
    depthMembers p.storedMembers = max (max
      (if p.members.isEmpty then 0 else (Json.Value.array (listToJson p.members)).depth)
      (depthMembers (optionalMember "items" p.element toJson)))
      (depthMembers (optionalMember "constraints" p.decl.constraints Constraints.toJson)) := by
  simp only [storedMembers, Declaration.members, depthMembers_append, depthMembers_unless]
  rw [depthMembers_scalar _ _ fun _ => rfl, depthMembers_scalar _ _ fun _ => rfl,
    depthMembers_scalar _ p.decl.source fun _ => rfl]
  simp [depthMembers, PropertyId.toJson, Uuid.toJson, depth]

theorem membersIn?_stored (p : Property) (levels : Nat)
    (below : listOf? (limited levels (.ofValue (.array (listToJson p.members)))) =
      if (Json.Value.array (listToJson p.members)).depth ≤ levels then some p.members else none) :
    membersIn? (limitedMembers levels (Document.ofMembers p.storedMembers)) =
      if (if p.members.isEmpty then 0 else (Json.Value.array (listToJson p.members)).depth) ≤ levels
        then some p.members else none := by
  have here : p.storedMembers.lookup "properties" =
      if p.members.isEmpty then none else some (.array (listToJson p.members)) := by
    simp [lookup_storedMembers]
  rw [membersIn?_written, here]
  cases empty : p.members.isEmpty with
  | true => simp [List.isEmpty_iff.1 empty]
  | false => simp [below]

theorem elementIn?_stored (p : Property) (levels : Nat)
    (below : ∀ q ∈ p.element, ofDocument? (limited levels (.ofValue q.toJson)) =
      if q.toJson.depth ≤ levels then some q else none) :
    elementIn? (limitedMembers levels (Document.ofMembers p.storedMembers)) =
      if depthMembers (optionalMember "items" p.element toJson) ≤ levels then some p.element
        else none := by
  have here : p.storedMembers.lookup "items" = p.element.map toJson := by
    simp [lookup_storedMembers]
  rw [elementIn?_written, here]
  cases given : p.element with
  | none => simp [optionalMember, depthMembers]
  | some q =>
    have present : (limited levels (.ofValue q.toJson)).isAbsent = false := by
      rw [toJson_eq]
      cases levels <;> rfl
    simp only [Option.map_some, Document.optional?, present, below q given, optionalMember,
      depthMembers, Nat.max_zero, Bool.false_eq_true, if_false]
    split <;> rfl

theorem ofDocument?_level (p : Property) (storable : p.Storable) (finite : p.Finite) (levels : Nat)
    (members : listOf? (limited levels (.ofValue (.array (listToJson p.members)))) =
      if (Json.Value.array (listToJson p.members)).depth ≤ levels then some p.members else none)
    (element : ∀ q ∈ p.element, ofDocument? (limited levels (.ofValue q.toJson)) =
      if q.toJson.depth ≤ levels then some q else none) :
    ofDocument? (limited (levels + 1) (.ofValue p.toJson)) =
      if p.toJson.depth ≤ levels + 1 then some p else none := by
  have members := membersIn?_stored p levels members
  have element := elementIn?_stored p levels element
  have fits : p.toJson.depth ≤ levels + 1 ↔
      ((if p.members.isEmpty then 0 else (Json.Value.array (listToJson p.members)).depth) ≤ levels ∧
        depthMembers (optionalMember "items" p.element toJson) ≤ levels) ∧
      depthMembers (optionalMember "constraints" p.decl.constraints Constraints.toJson) ≤
        levels := by
    have level : (Json.Value.object p.storedMembers).depth = depthMembers p.storedMembers + 1 := rfl
    rw [toJson_eq, level, depth_storedMembers, Nat.add_le_add_iff_right, Nat.max_le, Nat.max_le]
  rw [if_congr fits rfl rfl, toJson_eq, Document.ofValue, limited, if_neg levels.succ_ne_zero,
    ofDocument?]
  simp only [Nat.add_sub_cancel, Document.fields?_written p.names_storedMembers (by decide),
    ofFields?_written p storable finite, members, element, Option.bind_eq_bind, Option.bind_some]
  generalize (if p.members.isEmpty then 0 else _) = inMembers
  generalize depthMembers (optionalMember "items" _ _) = inElement
  generalize depthMembers (optionalMember "constraints" _ _) = inConstraints
  obtain ⟨d, ms, e⟩ := p
  by_cases constraints : inConstraints ≤ levels <;> by_cases below : inMembers ≤ levels <;>
    by_cases inside : inElement ≤ levels <;> simp [constraints, below, inside]

theorem listOf?_of_ofList? {ps : List Property} {levels : Nat}
    (items : ofList? (limitedItems (levels - 1) (Document.ofItems (listToJson ps))) =
      if depthItems (listToJson ps) ≤ levels - 1 then some ps else none) :
    listOf? (limited levels (.ofValue (.array (listToJson ps)))) =
      if (Json.Value.array (listToJson ps)).depth ≤ levels then some ps else none := by
  cases levels with
  | zero => simp [Document.ofValue, limited, listOf?, depth]
  | succ levels => simpa [Document.ofValue, limited, listOf?, depth] using items

mutual
theorem ofDocument?_limited : ∀ (p : Property) (levels : Nat),
    Everywhere (fun q => q.Storable ∧ q.Finite) [p] →
    ofDocument? (limited levels (.ofValue p.toJson)) =
      if p.toJson.depth ≤ levels then some p else none
  | ⟨d, ms, e⟩, levels, good => by
    rw [everywhere_cons] at good
    obtain ⟨⟨storable, finite⟩, goodMembers, goodElement, -⟩ := good
    cases levels with
    | zero => simp [toJson_eq, Document.ofValue, limited, ofDocument?, depth]
    | succ levels =>
      exact ofDocument?_level ⟨d, ms, e⟩ storable finite levels
        (listOf?_of_ofList? (ofList?_limited ms (levels - 1) goodMembers))
        (ofElement?_limited e levels goodElement)

theorem ofList?_limited : ∀ (ps : List Property) (levels : Nat),
    Everywhere (fun q => q.Storable ∧ q.Finite) ps →
    ofList? (limitedItems levels (Document.ofItems (listToJson ps))) =
      if depthItems (listToJson ps) ≤ levels then some ps else none
  | [], _, _ => by simp [listToJson, Document.ofItems, limitedItems, ofList?, depthItems]
  | p :: ps, levels, good => by
    rw [← List.singleton_append, everywhere_append] at good
    have first := ofDocument?_limited p levels good.1
    have others := ofList?_limited ps levels good.2
    simp only [listToJson, Document.ofItems, limitedItems, ofList?, first, others, depthItems,
      Nat.max_le]
    by_cases fits : p.toJson.depth ≤ levels <;>
      by_cases fit : depthItems (listToJson ps) ≤ levels <;> simp [fits, fit]

theorem ofElement?_limited : ∀ (e : Option Property) (levels : Nat),
    Everywhere (fun q => q.Storable ∧ q.Finite) e.toList →
    ∀ q ∈ e, ofDocument? (limited levels (.ofValue q.toJson)) =
      if q.toJson.depth ≤ levels then some q else none
  | none, _, _ => by simp
  | some p, levels, good => by
    intro q given
    obtain rfl := Option.some.inj given
    exact ofDocument?_limited p levels good
end

theorem listOf?_limited {ps : List Property} (good : Everywhere (fun q => q.Storable ∧ q.Finite) ps)
    (levels : Nat) :
    listOf? (limited levels (.ofValue (.array (listToJson ps)))) =
      if (Json.Value.array (listToJson ps)).depth ≤ levels then some ps else none :=
  listOf?_of_ofList? (ofList?_limited ps (levels - 1) good)

theorem inRange_level (p : Property) (storable : p.Storable)
    (members : InRangeItems (listToJson p.members))
    (element : ∀ q ∈ p.element, q.toJson.InRange) : p.toJson.InRange := by
  simp only [toJson_eq, InRange, storedMembers, Declaration.members, inRangeMembers_append]
  exact ⟨⟨⟨⟨⟨⟨⟨⟨trivial, trivial, trivial⟩, inRangeMembers_optional fun _ _ => trivial⟩,
    inRangeMembers_optional fun _ _ => trivial⟩, trivial, trivial, trivial⟩,
    inRangeMembers_unless members⟩, inRangeMembers_optional element⟩,
    inRangeMembers_optional fun c mem => Constraints.inRange_toJson (storable c mem)⟩,
    inRangeMembers_optional fun _ _ => trivial⟩

mutual
theorem inRange_toJson : ∀ p : Property, Everywhere Storable [p] → p.toJson.InRange
  | ⟨d, ms, e⟩, good => by
    rw [everywhere_cons] at good
    obtain ⟨storable, goodMembers, goodElement, -⟩ := good
    exact inRange_level ⟨d, ms, e⟩ storable (inRange_listToJson ms goodMembers)
      (inRange_element e goodElement)

theorem inRange_listToJson : ∀ ps : List Property, Everywhere Storable ps →
    InRangeItems (listToJson ps)
  | [], _ => trivial
  | p :: ps, good => by
    rw [← List.singleton_append, everywhere_append] at good
    exact ⟨inRange_toJson p good.1, inRange_listToJson ps good.2⟩

theorem inRange_element : ∀ e : Option Property, Everywhere Storable e.toList →
    ∀ q ∈ e, q.toJson.InRange
  | none, _ => by simp
  | some p, good => by
    intro q given
    obtain rfl := Option.some.inj given
    exact inRange_toJson p good
end

end Property
end CredentialSchema

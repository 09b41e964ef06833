import CredentialSchema.Property.Constraints
import CredentialSchema.Yaml.Reader

/-!
Documents of JSON values up to a nesting limit. A value in which no object repeats a name is
loaded as itself, if nothing in it is nested too deep, and else not at all. The members of a
written record are its fields, each limited by one level less.
-/
namespace CredentialSchema

open Yaml (limited limitedItems limitedMembers)

namespace Json.Value

@[simp] theorem depthMembers_append (ms ms' : List (String × Value)) :
    depthMembers (ms ++ ms') = max (depthMembers ms) (depthMembers ms') := by
  induction ms with
  | nil => simp [depthMembers]
  | cons m ms ih =>
    obtain ⟨k, v⟩ := m
    rw [List.cons_append, depthMembers, depthMembers, ih, Nat.max_assoc]

end Json.Value

namespace Document

open Json Json.Value

theorem setMember_of_not_mem {ms : List (String × Value)} {k : String} (v : Value)
    (absent : k ∉ ms.map (·.1)) : setMember ms k v = ms ++ [(k, v)] := by
  have none : ms.any (·.1 == k) = false := by
    rw [List.any_eq_false]
    exact fun m mem same => absent (List.mem_map.2 ⟨m, mem, by simpa using same⟩)
  simp [setMember, none]

mutual
theorem toValue?_limited : ∀ (v : Value) (levels : Nat), v.Distinct →
    toValue? (limited levels (ofValue v)) = if v.depth ≤ levels then some v else none
  | .null, _, _ => rfl
  | .bool _, _, _ => rfl
  | .number _, _, _ => rfl
  | .string _, _, _ => rfl
  | .array vs, levels, distinct => by
    have items := toItems?_limited vs (levels - 1) distinct
    cases levels with
    | zero => simp [ofValue, limited, toValue?, depth]
    | succ levels =>
      rw [ofValue, limited, if_neg levels.succ_ne_zero, toValue?, items, depth]
      simp only [Nat.add_sub_cancel, Nat.add_le_add_iff_right]
      split <;> rfl
  | .object ms, levels, distinct => by
    have members := toMembers?_limited ms [] (levels - 1) (by simpa using distinct.1) distinct.2
    cases levels with
    | zero => simp [ofValue, limited, toValue?, depth]
    | succ levels =>
      rw [ofValue, limited, if_neg levels.succ_ne_zero, toValue?, members, depth]
      simp only [Nat.add_sub_cancel, Nat.add_le_add_iff_right]
      split <;> rfl

theorem toItems?_limited : ∀ (vs : List Value) (levels : Nat), DistinctItems vs →
    toItems? (limitedItems levels (ofItems vs)) = if depthItems vs ≤ levels then some vs else none
  | [], _, _ => by simp [ofItems, limitedItems, toItems?, depthItems]
  | v :: vs, levels, distinct => by
    have first := toValue?_limited v levels distinct.1
    have others := toItems?_limited vs levels distinct.2
    simp only [ofItems, limitedItems, toItems?, first, others, depthItems, Nat.max_le]
    by_cases fits : v.depth ≤ levels <;> by_cases fit : depthItems vs ≤ levels <;> simp [fits, fit]

theorem toMembers?_limited : ∀ (ms before : List (String × Value)) (levels : Nat),
    ((before ++ ms).map (·.1)).Nodup → DistinctMembers ms →
    toMembers? before (limitedMembers levels (ofMembers ms)) =
      if depthMembers ms ≤ levels then some (before ++ ms) else none
  | [], before, _, _, _ => by simp [ofMembers, limitedMembers, toMembers?, depthMembers]
  | (k, v) :: ms, before, levels, names, distinct => by
    have first := toValue?_limited v levels distinct.1
    have others := toMembers?_limited ms (before ++ [(k, v)]) levels (by simpa using names)
      distinct.2
    have absent : k ∉ before.map (·.1) := by
      rw [List.map_append, List.map_cons, List.nodup_append] at names
      exact fun mem => names.2.2 k mem k List.mem_cons_self rfl
    simp only [ofMembers, limitedMembers, toMembers?, limited, name?, first, depthMembers,
      Nat.max_le]
    by_cases fits : v.depth ≤ levels
    · simp [fits, setMember_of_not_mem v absent, others]
    · simp [fits]
end

theorem toItems?_eq_mapM (ds : List Document) : toItems? ds = ds.mapM toValue? := by
  induction ds with
  | nil => rfl
  | cons d ds ih => rw [toItems?, List.mapM_cons, ih]

theorem list?_limited {vs : List Value} (distinct : DistinctItems vs) (levels : Nat) :
    list? toValue? (limited levels (ofValue (.array vs))) =
      if (Value.array vs).depth ≤ levels then some vs else none := by
  have items := toItems?_limited vs (levels - 1) distinct
  rw [toItems?_eq_mapM] at items
  cases levels with
  | zero => simp [ofValue, limited, list?, depth]
  | succ levels =>
    rw [ofValue, limited, if_neg levels.succ_ne_zero, list?, items, depth]
    simp

theorem limitedMembers_ofMembers (levels : Nat) (ms : List (String × Value)) :
    limitedMembers levels (ofMembers ms) =
      ms.map fun m => (.text m.1, limited levels (ofValue m.2)) := by
  induction ms with
  | nil => rfl
  | cons m ms ih =>
    rw [ofMembers, limitedMembers, ih]
    rfl

end Document

def Fields.written (levels : Nat) (ms : List (String × Json.Value)) : Fields :=
  ⟨ms.map fun m => (m.1, limited levels (.ofValue m.2))⟩

theorem Fields.get?_written (levels : Nat) (ms : List (String × Json.Value)) (name : String) :
    (written levels ms).get? name = (ms.lookup name).map fun v => limited levels (.ofValue v) := by
  rw [get?, written]
  induction ms with
  | nil => rfl
  | cons m ms ih =>
    obtain ⟨k, v⟩ := m
    cases same : name == k <;> simp [List.lookup_cons, same, ih]

theorem Document.mapM_field? {names : List String} {ms : List (String × Json.Value)}
    (known : ∀ m ∈ ms, m.1 ∈ names) (levels : Nat) :
    ((limitedMembers levels (ofMembers ms)).mapM fun (k, d) => (field? names k).map (·, d)) =
      some (ms.map fun m => (some m.1, limited levels (ofValue m.2))) := by
  rw [limitedMembers_ofMembers]
  induction ms with
  | nil => rfl
  | cons m ms ih =>
    have first : field? names (.text m.1) = some (some m.1) := by
      simp [field?, known m List.mem_cons_self]
    rw [List.map_cons, List.mapM_cons, ih fun m mem => known m (.tail _ mem)]
    simp only [first]
    rfl

theorem Document.fields?_written {names : List String} {ms : List (String × Json.Value)}
    (sub : (ms.map (·.1)).Sublist names) (distinct : names.Nodup) (levels : Nat) :
    fields? names (.mapping (limitedMembers levels (ofMembers ms))) =
      some (.written levels ms) := by
  have told := mapM_field? (fun m mem => sub.subset (List.mem_map_of_mem mem)) levels
  have own : (ms.map (·.1)).Nodup := distinct.sublist sub
  simp [fields?, told, List.filterMap_map, Function.comp_def, Fields.written, own]

theorem lookup_member (name key : String) (v : Json.Value) (ms : List (String × Json.Value)) :
    ((name, v) :: ms).lookup key = if key = name then some v else ms.lookup key := by
  by_cases same : key = name
  · simp [same]
  · simp [List.lookup_cons, beq_false_of_ne same, same]

theorem lookup_optionalMember (name key : String) (value : Option α) (write : α → Json.Value) :
    (optionalMember name value write).lookup key =
      if key = name then value.map write else none := by
  cases value with
  | none => simp [optionalMember]
  | some v => simp [optionalMember, lookup_member]

theorem names_optionalMember (name : String) (value : Option α) (write : α → Json.Value) :
    ((optionalMember name value write).map (·.1)).Sublist [name] := by
  cases value <;> simp [optionalMember]

theorem lookup_unless (absent : Bool) (name key : String) (v : Json.Value) :
    (if absent then [] else [(name, v)]).lookup key =
      if key = name then (if absent then none else some v) else none := by
  cases absent <;> simp [lookup_member]

theorem names_unless (absent : Bool) (name : String) (v : Json.Value) :
    ((if absent then [] else [(name, v)]).map (·.1)).Sublist [name] := by
  cases absent <;> simp

theorem depthMembers_scalar (name : String) (value : Option α) {write : α → Json.Value}
    (scalar : ∀ a, (write a).depth = 0) :
    Json.Value.depthMembers (optionalMember name value write) = 0 := by
  cases value <;> simp [optionalMember, Json.Value.depthMembers, scalar]

theorem depthMembers_unless (absent : Bool) (name : String) (v : Json.Value) :
    Json.Value.depthMembers (if absent then [] else [(name, v)]) =
      if absent then 0 else v.depth := by
  cases absent <;> simp [Json.Value.depthMembers]

namespace Fields

variable {levels : Nat} {ms : List (String × Json.Value)} {name : String}

theorem required_written {v : Json.Value} (here : ms.lookup name = some v)
    (read : Document → Option α) :
    (written levels ms).required name read = read (limited levels (.ofValue v)) := by
  rw [required, get?_written, here]
  rfl

theorem withDefault_written {v : Json.Value} (here : ms.lookup name = some v) (default : α)
    (read : Document → Option α) :
    (written levels ms).withDefault name default read = read (limited levels (.ofValue v)) := by
  rw [withDefault, get?_written, here]
  rfl

theorem optional_written {value : Option α} {write : α → Json.Value}
    (here : ms.lookup name = value.map write) {read : Document → Option α}
    (back : ∀ a ∈ value, (limited levels (.ofValue (write a))).isAbsent = false ∧
      read (limited levels (.ofValue (write a))) = some a) :
    (written levels ms).optional name read = some value := by
  rw [optional, get?_written, here]
  cases value with
  | none => rfl
  | some a =>
    obtain ⟨present, same⟩ := back a rfl
    simp [Document.optional?, present, same]

end Fields
end CredentialSchema

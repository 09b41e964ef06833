import CredentialSchema.Proofs.Document.Scalars
import CredentialSchema.Proofs.Property.Stored

/-!
What loaded properties are like. Whatever document they are loaded from, the listed values can be
written and read again; from JSON text the bounds are numbers, too. A property takes its
constraints from a part of its document, and so does every property below it.
-/
namespace CredentialSchema

open Document (Each EachItem EachMember Readable FromJson)

namespace Constraints

/-- Constraints that are loaded from such scalars are such. -/
def Loaded (P : Document → Prop) (C : Constraints → Prop) : Prop :=
  ∀ {d : Document} {c : Constraints}, Each P d → ofDocument? d = some c → C c

theorem Loaded.mono {P Q : Document → Prop} {C : Constraints → Prop} (part : Loaded Q C)
    (mono : ∀ d, P d → Q d) : Loaded P C :=
  fun each h => part (Document.each_mono mono _ each) h

variable {d : Document} {c : Constraints}

theorem ofDocument?_cases (h : ofDocument? d = some c) : ∃ f, d.fields? fieldNames = some f ∧
    f.optional "minimum" Document.bound? = some c.minimum ∧
    f.optional "maximum" Document.bound? = some c.maximum ∧
    f.withDefault "enum" [] (Document.list? Document.toValue?) = some c.choices := by
  obtain ⟨f, fields, h⟩ := Option.bind_eq_some_iff.1 h
  obtain ⟨maxLength, -, h⟩ := Option.bind_eq_some_iff.1 h
  obtain ⟨minLength, -, h⟩ := Option.bind_eq_some_iff.1 h
  obtain ⟨minimum, least, h⟩ := Option.bind_eq_some_iff.1 h
  obtain ⟨maximum, most, h⟩ := Option.bind_eq_some_iff.1 h
  obtain ⟨precision, -, h⟩ := Option.bind_eq_some_iff.1 h
  obtain ⟨pattern, -, h⟩ := Option.bind_eq_some_iff.1 h
  obtain ⟨format, -, h⟩ := Option.bind_eq_some_iff.1 h
  obtain ⟨choices, listed, h⟩ := Option.bind_eq_some_iff.1 h
  obtain rfl := Option.some.inj h
  exact ⟨f, fields, least, most, listed⟩

theorem loaded_storable : Loaded Readable Storable := by
  intro d c each h
  obtain ⟨f, fields, -, -, listed⟩ := ofDocument?_cases h
  refine Json.Value.storable_array fun v mem => ?_
  rcases Fields.loads_withDefault (Document.each_fields? fields each) listed with none | loads
  · simp [none] at mem
  · obtain ⟨list, items, read⟩ := loads
    obtain ⟨d, item, value⟩ := Document.loads_list? read items v mem
    exact Document.storable_toValue? d value item

theorem isFinite_of_bound? {d : Document} {b : Bound} (each : Each FromJson d)
    (h : d.bound? = some b) : b.isFinite = true := by
  cases d with
  | number n =>
    cases n <;>
    · obtain rfl := Option.some.inj h
      rfl
  | special b => exact each.elim
  | plain s => exact each.elim
  | null | bool | text | sequence | mapping | unreadable => exact absurd h nofun

theorem loaded_finite : Loaded FromJson Finite := by
  intro d c each h
  obtain ⟨f, fields, least, most, -⟩ := ofDocument?_cases h
  have scalars := Document.each_fields? fields each
  constructor
  · intro b given
    rw [Option.mem_def.1 given] at least
    obtain ⟨d, scalar, read⟩ := Fields.loads_optional scalars least
    exact isFinite_of_bound? scalar read
  · intro b given
    rw [Option.mem_def.1 given] at most
    obtain ⟨d, scalar, read⟩ := Fields.loads_optional scalars most
    exact isFinite_of_bound? scalar read

end Constraints

open Constraints (Loaded)

variable {P : Document → Prop} {C : Constraints → Prop}

theorem Constraints.of_optional (part : Loaded P C) {f : Fields}
    (each : ∀ m ∈ f.members, Each P m.2) {constraints : Option Constraints}
    (h : f.optional "constraints" ofDocument? = some constraints) : ∀ c ∈ constraints, C c := by
  intro c given
  rw [Option.mem_def.1 given] at h
  obtain ⟨d, scalars, read⟩ := Fields.loads_optional each h
  exact part scalars read

theorem Declaration.constraints_of_fields (part : Loaded P C) {f : Fields}
    (each : ∀ m ∈ f.members, Each P m.2) {d : Declaration} (h : ofFields? f = some d) :
    ∀ c ∈ d.constraints, C c := by
  obtain ⟨id, -, h⟩ := Option.bind_eq_some_iff.1 h
  obtain ⟨name, -, h⟩ := Option.bind_eq_some_iff.1 h
  obtain ⟨displayName, -, h⟩ := Option.bind_eq_some_iff.1 h
  obtain ⟨description, -, h⟩ := Option.bind_eq_some_iff.1 h
  obtain ⟨kind, -, h⟩ := Option.bind_eq_some_iff.1 h
  obtain ⟨required, -, h⟩ := Option.bind_eq_some_iff.1 h
  obtain ⟨constraints, given, h⟩ := Option.bind_eq_some_iff.1 h
  obtain ⟨source, -, h⟩ := Option.bind_eq_some_iff.1 h
  obtain rfl := Option.some.inj h
  exact Constraints.of_optional part each given

namespace Property

mutual
theorem everywhere_ofDocument? (part : Loaded P C) : ∀ (d : Document) {p : Property},
    Each P d → ofDocument? d = some p → Everywhere (Constrained C) [p]
  | .mapping ms, p, each, h => by
    obtain ⟨f, fields, h⟩ := Option.bind_eq_some_iff.1 h
    obtain ⟨d, declared, h⟩ := Option.bind_eq_some_iff.1 h
    obtain ⟨members, inMembers, h⟩ := Option.bind_eq_some_iff.1 h
    obtain ⟨element, inElement, h⟩ := Option.bind_eq_some_iff.1 h
    obtain rfl := Option.some.inj h
    rw [everywhere_cons]
    exact ⟨Declaration.constraints_of_fields part (Document.each_fields? fields each) declared,
      everywhere_membersIn? part ms each inMembers, everywhere_elementIn? part ms each inElement,
      everywhere_nil⟩
  | .sequence ds, p, each, h => by
    obtain ⟨f, fields, h⟩ := Option.bind_eq_some_iff.1 h
    obtain ⟨d, declared, h⟩ := Option.bind_eq_some_iff.1 h
    obtain ⟨members, inMembers, h⟩ := Option.bind_eq_some_iff.1 h
    obtain ⟨element, inElement, h⟩ := Option.bind_eq_some_iff.1 h
    obtain rfl := Option.some.inj h
    rw [everywhere_cons]
    exact ⟨Declaration.constraints_of_fields part (Document.each_fields? fields each) declared,
      everywhere_membersAt? part ds 6 each inMembers,
      everywhere_elementAt? part ds 7 each inElement, everywhere_nil⟩
  | .null, _, _, h | .bool _, _, _, h | .number _, _, _, h | .special _, _, _, h
  | .text _, _, _, h | .plain _, _, _, h | .unreadable, _, _, h => nomatch h

theorem everywhere_ofList? (part : Loaded P C) : ∀ (ds : List Document) {ps : List Property},
    EachItem P ds → ofList? ds = some ps → Everywhere (Constrained C) ps
  | [], _, _, h => by
    obtain rfl := Option.some.inj h
    exact everywhere_nil
  | d :: ds, _, each, h => by
    obtain ⟨p, first, h⟩ := Option.bind_eq_some_iff.1 h
    obtain ⟨ps, others, h⟩ := Option.bind_eq_some_iff.1 h
    obtain rfl := Option.some.inj h
    rw [← List.singleton_append, everywhere_append]
    exact ⟨everywhere_ofDocument? part d each.1 first, everywhere_ofList? part ds each.2 others⟩

theorem everywhere_listOf? (part : Loaded P C) : ∀ (d : Document) {ps : List Property},
    Each P d → listOf? d = some ps → Everywhere (Constrained C) ps
  | .sequence ds, _, each, h => everywhere_ofList? part ds each h
  | .plain s, ps, _, h => by
    rw [listOf?] at h
    split at h
    · obtain rfl := Option.some.inj h
      exact everywhere_nil
    · simp at h
  | .null, _, _, h | .bool _, _, _, h | .number _, _, _, h | .special _, _, _, h
  | .text _, _, _, h | .mapping _, _, _, h | .unreadable, _, _, h => nomatch h

theorem everywhere_membersIn? (part : Loaded P C) : ∀ (ms : List (Document × Document))
    {ps : List Property}, EachMember P ms → membersIn? ms = some ps →
    Everywhere (Constrained C) ps
  | [], _, _, h => by
    obtain rfl := Option.some.inj h
    exact everywhere_nil
  | (k, d) :: ms, ps, each, h => by
    rw [membersIn?] at h
    split at h
    · exact everywhere_listOf? part d each.2.1 h
    · exact everywhere_membersIn? part ms each.2.2 h

theorem everywhere_elementIn? (part : Loaded P C) : ∀ (ms : List (Document × Document))
    {e : Option Property}, EachMember P ms → elementIn? ms = some e →
    Everywhere (Constrained C) e.toList
  | [], _, _, h => by
    obtain rfl := Option.some.inj h
    exact everywhere_nil
  | (k, d) :: ms, e, each, h => by
    rw [elementIn?] at h
    split at h
    · split at h
      · obtain rfl := Option.some.inj h
        exact everywhere_nil
      · obtain ⟨p, read, rfl⟩ := Option.map_eq_some_iff.1 h
        exact everywhere_ofDocument? part d each.2.1 read
    · exact everywhere_elementIn? part ms each.2.2 h

theorem everywhere_membersAt? (part : Loaded P C) : ∀ (ds : List Document) (place : Nat)
    {ps : List Property}, EachItem P ds → membersAt? place ds = some ps →
    Everywhere (Constrained C) ps
  | [], place, _, _, h => by
    cases place <;>
    · obtain rfl := Option.some.inj h
      exact everywhere_nil
  | d :: ds, 0, _, each, h => everywhere_listOf? part d each.1 h
  | d :: ds, place + 1, _, each, h => everywhere_membersAt? part ds place each.2 h

theorem everywhere_elementAt? (part : Loaded P C) : ∀ (ds : List Document) (place : Nat)
    {e : Option Property}, EachItem P ds → elementAt? place ds = some e →
    Everywhere (Constrained C) e.toList
  | [], place, _, _, h => by
    cases place <;>
    · obtain rfl := Option.some.inj h
      exact everywhere_nil
  | d :: ds, 0, e, each, h => by
    rw [elementAt?] at h
    split at h
    · obtain rfl := Option.some.inj h
      exact everywhere_nil
    · obtain ⟨p, read, rfl⟩ := Option.map_eq_some_iff.1 h
      exact everywhere_ofDocument? part d each.1 read
  | d :: ds, place + 1, _, each, h => everywhere_elementAt? part ds place each.2 h
end

end Property

end CredentialSchema

import CredentialSchema.Proofs.Compile.Levels
import CredentialSchema.Proofs.Document.Scalars
import CredentialSchema.Proofs.Json.Listing
import CredentialSchema.Proofs.Json.Pointer

/-!
The subschemas of any document: those that steps into its listed members and its elements lead to.
No two ways down have the same pointer, and read as a JSON pointer it leads where they do, whatever
the members are called. One step at a time the ways down branch like a tree.
-/
namespace CredentialSchema

open Json (Value)
open SchemaPass (Step pointer subschema?)

def SchemaPass.Step.tokens : Step → List String
  | .member name => ["properties", name]
  | .element => ["items"]

namespace SchemaPass

theorem pointer_eq_write (steps : List Step) :
    pointer steps = Pointer.write (steps.flatMap Step.tokens) := by
  induction steps with
  | nil => rfl
  | cons s steps ih =>
    have own : s.pointer = Pointer.write s.tokens := by
      cases s with
      | member name =>
        have keyword : Strictness.escapeSegment "properties" = "properties" := by decide
        simp [Step.pointer, Step.tokens, Pointer.write, keyword, ← String.append_assoc]
      | element =>
        have keyword : Strictness.escapeSegment "items" = "items" := by decide
        simp [Step.pointer, Step.tokens, Pointer.write, keyword]
    rw [pointer, List.flatMap_cons, Pointer.write_append, own, ih]

theorem flatMap_tokens_inj {steps steps' : List Step}
    (same : steps.flatMap Step.tokens = steps'.flatMap Step.tokens) : steps = steps' := by
  induction steps generalizing steps' with
  | nil => cases steps' with
    | nil => rfl
    | cons s _ => cases s <;> simp [Step.tokens] at same
  | cons s steps ih => cases steps' with
    | nil => cases s <;> simp [Step.tokens] at same
    | cons s' steps' =>
      cases s <;> cases s' <;> simp [Step.tokens] at same
      · rw [same.1, ih same.2]
      · rw [ih same]

theorem pointer_inj {steps steps' : List Step} (same : pointer steps = pointer steps') :
    steps = steps' := by
  rw [pointer_eq_write, pointer_eq_write] at same
  exact flatMap_tokens_inj (Pointer.write_inj same)

theorem follow?_tokens {steps : List Step} {v w : Value} (reached : subschema? steps v = some w) :
    Pointer.follow? (steps.flatMap Step.tokens) v = some w := by
  induction steps generalizing v with
  | nil => exact reached
  | cons s steps ih =>
    cases s with
    | member name =>
      obtain ⟨u, below, reached⟩ := Option.bind_eq_some_iff.1 reached
      obtain ⟨listed, properties, member⟩ := Option.bind_eq_some_iff.1 below
      simp [Step.tokens, Pointer.follow?, Pointer.step?_of_get? properties,
        Pointer.step?_of_get? member, ih reached]
    | element =>
      obtain ⟨u, items, reached⟩ := Option.bind_eq_some_iff.1 reached
      simp [Step.tokens, Pointer.follow?, Pointer.step?_of_get? items, ih reached]

def listed (v : Value) : List (String × Value) :=
  ((v.get? "properties").bind Value.asObject?).getD []

/-- The subschemas one step further down: those that are listed and that of the elements. -/
def directSubschemas (v : Value) : List (Step × Value) :=
  (listed v).map (fun m => (.member m.1, m.2)) ++ (v.get? "items").toList.map (.element, ·)

theorem mem_listed_iff {v : Value} {m : String × Value} :
    m ∈ listed v ↔ ∃ ms, v.get? "properties" = some (.object ms) ∧ m ∈ ms := by
  rw [listed]
  cases v.get? "properties" with
  | none => simp
  | some w => cases w <;> simp [Value.asObject?]

theorem mem_of_get? {ms : List (String × Value)} {name : String} {w : Value}
    (held : (Value.object ms).get? name = some w) : (name, w) ∈ ms := by
  obtain ⟨before, after, rfl, -⟩ := List.lookup_eq_some_iff.1 held
  simp

/-- Induction on the subschemas of a value. -/
theorem directSubschemas_induct {motive : Value → Prop}
    (node : ∀ v, (∀ c ∈ directSubschemas v, motive c.2) → motive v) (v : Value) : motive v := by
  -- What is listed is two levels below, so the members of a value are carried along.
  suffices both : motive v ∧ ∀ ms, v = .object ms → ∀ m ∈ ms, motive m.2 from both.1
  induction v using Value.induct with
  | null | bool | number | string | array => exact ⟨node _ nofun, nofun⟩
  | object ms ih =>
    have members : ∀ m ∈ ms, motive m.2 := fun m mem => (ih m mem).1
    refine ⟨node _ fun c mem => ?_, ?_⟩
    · rcases List.mem_append.1 mem with isMember | isElement
      · obtain ⟨m, isListed, rfl⟩ := List.mem_map.1 isMember
        obtain ⟨inner, properties, mem⟩ := mem_listed_iff.1 isListed
        exact (ih _ (mem_of_get? properties)).2 inner rfl m mem
      · obtain ⟨w, items, rfl⟩ := List.mem_map.1 isElement
        exact members _ (mem_of_get? (Option.mem_toList.1 items))
    · rintro _ ⟨⟩
      exact members

section Distinct

variable {v : Value} (distinct : v.Distinct)

include distinct

theorem distinct_of_get? {name : String} {w : Value} (held : v.get? name = some w) :
    w.Distinct := by
  cases v with
  | object ms => exact Value.distinctMembers_iff.1 distinct.2 (name, w) (mem_of_get? held)
  | null | bool | number | string | array => cases held

theorem nodup_listed : ((listed v).map Prod.fst).Nodup := by
  rw [listed]
  cases held : v.get? "properties" with
  | none => exact .nil
  | some w => cases w with
    | object ms => exact (distinct_of_get? distinct held).1
    | null | bool | number | string | array => exact .nil

theorem distinct_of_mem_listed {m : String × Value} (mem : m ∈ listed v) : m.2.Distinct := by
  obtain ⟨ms, held, mem⟩ := mem_listed_iff.1 mem
  exact Value.distinctMembers_iff.1 (distinct_of_get? distinct held).2 m mem

theorem distinct_of_mem_directSubschemas {c : Step × Value} (mem : c ∈ directSubschemas v) :
    c.2.Distinct := by
  rcases List.mem_append.1 mem with isMember | isElement
  · obtain ⟨m, isListed, rfl⟩ := List.mem_map.1 isMember
    exact distinct_of_mem_listed distinct isListed
  · obtain ⟨w, items, rfl⟩ := List.mem_map.1 isElement
    exact distinct_of_get? distinct (Option.mem_toList.1 items)

theorem nodup_directSubschemas : ((directSubschemas v).map Prod.fst).Nodup := by
  have names := nodup_listed distinct
  have split : (directSubschemas v).map Prod.fst =
      ((listed v).map Prod.fst).map Step.member ++
        (v.get? "items").toList.map fun _ => .element := by
    simp [directSubschemas, Function.comp_def]
  rw [split, List.nodup_append']
  refine ⟨names.map fun _ _ => Step.member.inj, ?_, ?_⟩
  · cases v.get? "items" <;> simp
  · intro s isMember isElement
    obtain ⟨name, -, rfl⟩ := List.mem_map.1 isMember
    simp at isElement

theorem subschema?_cons_iff (s : Step) (steps : List Step) (w : Value) :
    subschema? (s :: steps) v = some w ↔
      ∃ u, (s, u) ∈ directSubschemas v ∧ subschema? steps u = some w := by
  have names := nodup_listed distinct
  cases s with
  | member name =>
    have child : ((v.get? "properties").bind fun listed => listed.get? name) =
        (listed v).lookup name := by
      rw [listed]
      cases v.get? "properties" with
      | none => rfl
      | some w => cases w <;> rfl
    rw [subschema?, child, Option.bind_eq_some_iff]
    simp [lookup_eq_some_iff_mem names, directSubschemas]
  | element =>
    rw [subschema?, Option.bind_eq_some_iff]
    simp [directSubschemas]

end Distinct

end SchemaPass

end CredentialSchema

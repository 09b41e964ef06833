import CredentialSchema.Proofs.Project.Stored

/-!
Projects as JSON values. The value that a project is written as loads again as the project, every
field that may be absent or empty included, exactly if the tree is well formed and its bounds are
numbers; and whatever value a project was loaded from, writing it and loading it again changes
nothing more.
-/
namespace CredentialSchema

open Yaml (limited limitedItems limitedMembers)
open Json (Value)
open Json.Value

namespace Document

mutual
theorem limited_ofValue : ∀ (v : Value) (levels : Nat), v.depth ≤ levels →
    limited levels (ofValue v) = ofValue v
  | .null, _, _ | .bool _, _, _ | .number _, _, _ | .string _, _, _ => rfl
  | .array vs, levels, fits => by
    rw [depth] at fits
    have items := limitedItems_ofItems vs (levels - 1) (by omega)
    rw [ofValue, limited, if_neg (by omega), items]
  | .object ms, levels, fits => by
    rw [depth] at fits
    have members := limitedMembers_ofValues ms (levels - 1) (by omega)
    rw [ofValue, limited, if_neg (by omega), members]

theorem limitedItems_ofItems : ∀ (vs : List Value) (levels : Nat), depthItems vs ≤ levels →
    limitedItems levels (ofItems vs) = ofItems vs
  | [], _, _ => rfl
  | v :: vs, levels, fits => by
    rw [depthItems, Nat.max_le] at fits
    rw [ofItems, limitedItems, limited_ofValue v levels fits.1,
      limitedItems_ofItems vs levels fits.2]

theorem limitedMembers_ofValues : ∀ (ms : List (String × Value)) (levels : Nat),
    depthMembers ms ≤ levels → limitedMembers levels (ofMembers ms) = ofMembers ms
  | [], _, _ => rfl
  | (k, v) :: ms, levels, fits => by
    rw [depthMembers, Nat.max_le] at fits
    rw [ofMembers, limitedMembers, limited_ofValue v levels fits.1,
      limitedMembers_ofValues ms levels fits.2]
    rfl
end

mutual
theorem each_ofValue : ∀ v : Value, v.InRange → Each FromJson (ofValue v)
  | .null, _ | .bool _, _ | .string _, _ => trivial
  | .number _, inRange => inRange
  | .array vs, inRange => eachItem_ofItems vs inRange
  | .object ms, inRange => eachMember_ofMembers ms inRange

theorem eachItem_ofItems : ∀ vs : List Value, InRangeItems vs → EachItem FromJson (ofItems vs)
  | [], _ => trivial
  | v :: vs, inRange => ⟨each_ofValue v inRange.1, eachItem_ofItems vs inRange.2⟩

theorem eachMember_ofMembers : ∀ ms : List (String × Value), InRangeMembers ms →
    EachMember FromJson (ofMembers ms)
  | [], _ => trivial
  | (_, v) :: ms, inRange =>
    ⟨trivial, each_ofValue v inRange.1, eachMember_ofMembers ms inRange.2⟩
end

end Document

namespace Project

open Property (Everywhere)

variable {p : Project}

theorem load_toJson (wellFormed : p.tree.WellFormed)
    (storable : Everywhere Property.Storable p.tree.roots)
    (finite : Everywhere Property.Finite p.tree.roots) :
    load (.ofValue p.toJson) = .ok p.reloaded := by
  have good : Everywhere (fun q => q.Storable ∧ q.Finite) p.tree.roots :=
    fun q mem => ⟨storable q mem, finite q mem⟩
  have loaded := load_limited wellFormed good p.toJson.depth
  rw [if_pos (Nat.le_refl _), Document.limited_ofValue _ _ (Nat.le_refl _)] at loaded
  cases result : load (.ofValue p.toJson) with
  | error e => simp [result, Except.toOption] at loaded
  | ok q => simpa [result, Except.toOption] using loaded

theorem revision_of_load {d : Document} (h : load d = .ok p) : p.tree.revision = 0 := by
  rw [load] at h
  split at h
  · simp at h
  · next id metadata roots _ =>
    cases made : Tree.ofProperties roots with
    | error v => simp [made, Except.mapError, Except.map] at h
    | ok t =>
      simp only [made, Except.mapError, Except.map, Except.ok.injEq] at h
      obtain ⟨rfl, -, -⟩ := (Tree.ofProperties_eq_ok_iff ..).1 made
      exact h ▸ rfl

theorem good_of_load {v : Value} (inRange : v.InRange) (h : load (.ofValue v) = .ok p) :
    p.tree.WellFormed ∧ Everywhere Property.Storable p.tree.roots ∧
      Everywhere Property.Finite p.tree.roots := by
  have each := Document.each_ofValue v inRange
  have readable := Document.each_mono Document.readable_of_fromJson _ each
  exact ⟨(load_cases h).1, constrained_of_load Constraints.loaded_storable readable h,
    constrained_of_load Constraints.loaded_finite each h⟩

theorem load_toJson_iff (storable : Everywhere Property.Storable p.tree.roots) :
    load (.ofValue p.toJson) = .ok p.reloaded ↔
      p.tree.WellFormed ∧ Everywhere Property.Finite p.tree.roots := by
  refine ⟨fun h => ?_, fun ⟨wellFormed, finite⟩ => load_toJson wellFormed storable finite⟩
  obtain ⟨wellFormed, -, finite⟩ := good_of_load (inRange_toJson storable) h
  exact ⟨⟨wellFormed.distinct, wellFormed.legal⟩, finite⟩

theorem load_toJson_of_load {v : Value} (inRange : v.InRange) (h : load (.ofValue v) = .ok p) :
    load (.ofValue p.toJson) = .ok p := by
  obtain ⟨wellFormed, storable, finite⟩ := good_of_load inRange h
  rw [load_toJson wellFormed storable finite, reloaded, ← revision_of_load h]

/-- Saving and loading loses nothing. A project whose listed values are such as JSON has is loaded
from the value it is written as, at revision zero and otherwise as it was, exactly if its tree is
well formed and its bounds are numbers; and a project that was loaded from a value is loaded from
its own written form again. -/
theorem saving_loses_nothing :
    (∀ p : Project, Everywhere Property.Storable p.tree.roots →
      (load (.ofValue p.toJson) = .ok p.reloaded ↔
        p.tree.WellFormed ∧ Everywhere Property.Finite p.tree.roots)) ∧
      ∀ (v : Value) (p : Project), v.InRange → load (.ofValue v) = .ok p →
        load (.ofValue p.toJson) = .ok p :=
  ⟨fun _ => load_toJson_iff, fun _ _ => load_toJson_of_load⟩

theorem saving_loses_nothing_empty_parts :
    ∃ p q : Project, p.metadata.category = some "" ∧ p.tree.revision = 3 ∧
      (p.tree.roots.map fun r => (r.decl.description, r.decl.constraints, r.element.isSome)) =
        [(some "", some {}, true)] ∧
      q = p.reloaded ∧ load (.ofValue p.toJson) = .ok q ∧ load (.ofValue q.toJson) = .ok q := by
  let tags : Property :=
    ⟨{ id := ⟨.numbered 1⟩, name := "tags", description := some "", kind := .array,
       constraints := some {} }, [], some (.fresh ⟨.numbered 2⟩ .object "tags")⟩
  let p : Project := ⟨⟨.numbered 0⟩, { category := some "" }, ⟨[tags], 3⟩⟩
  have constrained {C : Constraints → Prop} (empty : C {}) :
      Everywhere (Property.Constrained C) p.tree.roots := by
    intro q mem c given
    simp only [p, tags, Property.subtreeOfList, Property.subtree, Property.subtreeOfOption,
      Property.fresh, List.nil_append, List.append_nil, List.mem_cons, List.not_mem_nil,
      or_false] at mem
    rcases mem with rfl | rfl
    · obtain rfl := Option.some.inj given
      exact empty
    · simp at given
  have storable : Everywhere Property.Storable p.tree.roots := constrained ⟨trivial, trivial⟩
  have finite : Everywhere Property.Finite p.tree.roots := constrained ⟨by simp, by simp⟩
  have wellFormed : p.tree.WellFormed := p.tree.wellFormed_iff.2 (by decide +kernel)
  have loaded := (saving_loses_nothing.1 p storable).2 ⟨wellFormed, finite⟩
  exact ⟨p, p.reloaded, rfl, rfl, rfl, rfl, loaded,
    saving_loses_nothing.2 p.toJson p.reloaded (inRange_toJson storable) loaded⟩

end Project
end CredentialSchema

import CredentialSchema.Proofs.Document.Scalars
import CredentialSchema.Storage.Project

/-!
The documents that the readers make. Both keep the integers of a document within 64 bits; the
JSON reader makes neither plain scalars nor floats that are no numbers. An alias of YAML text
stands for a document that was made before it, so the named documents are carried along.
-/
namespace CredentialSchema

open Document

namespace Json

theorem inRange_value? {n : Numeral} {m : Number} (h : n.value? = some m) : m.InRange := by
  rw [Numeral.value?] at h
  split at h
  · next i integer =>
    obtain rfl := Option.some.inj h
    simp only [Numeral.integer?, Nat.pow_eq] at integer
    split_ifs at integer with written negative small large
    · obtain rfl := Option.some.inj integer
      simp only [Number.InRange]
      omega
    · obtain rfl := Option.some.inj integer
      simp only [Number.InRange]
      omega
  · obtain ⟨x, -, rfl⟩ := Option.map_eq_some_iff.1 h
    trivial

namespace Reader

theorem fromJson_number? {negative : Bool} {cs rest : List Char} {d : Document}
    (h : number? negative cs = some (d, rest)) : Each FromJson d := by
  obtain ⟨⟨n, r⟩, -, h⟩ := Option.bind_eq_some_iff.1 h
  obtain ⟨rfl, -⟩ := Prod.mk.inj (Option.some.inj h)
  cases value : n.value? with
  | none => trivial
  | some m => exact inRange_value? value

theorem fromJson_nested {levels : ℕ} {d : Document} (h : Each FromJson d) :
    Each FromJson (nested levels d) := by
  rw [nested]
  split
  · trivial
  · exact h

mutual
theorem fromJson_value? : ∀ (fuel : ℕ) {levels : ℕ} {cs rest : List Char} {d : Document},
    value? fuel levels cs = some (d, rest) → Each FromJson d
  | 0, _, _, _, _, h => nomatch h
  | fuel + 1, levels, cs, rest, d, h => by
    rw [value?] at h
    split at h
    · obtain ⟨r, -, same⟩ := Option.map_eq_some_iff.1 h
      obtain ⟨rfl, -⟩ := Prod.mk.inj same
      trivial
    · obtain ⟨r, -, same⟩ := Option.map_eq_some_iff.1 h
      obtain ⟨rfl, -⟩ := Prod.mk.inj same
      trivial
    · obtain ⟨r, -, same⟩ := Option.map_eq_some_iff.1 h
      obtain ⟨rfl, -⟩ := Prod.mk.inj same
      trivial
    · obtain ⟨⟨us, r⟩, -, h⟩ := Option.bind_eq_some_iff.1 h
      obtain ⟨rfl, -⟩ := Prod.mk.inj (Option.some.inj h)
      cases joinUnits us <;> trivial
    · exact fromJson_number? h
    · split at h
      · obtain ⟨rfl, -⟩ := Prod.mk.inj (Option.some.inj h)
        exact fromJson_nested trivial
      · obtain ⟨⟨ds, r⟩, items, h⟩ := Option.bind_eq_some_iff.1 h
        obtain ⟨rfl, -⟩ := Prod.mk.inj (Option.some.inj h)
        exact fromJson_nested (fromJson_items? fuel items)
    · split at h
      · obtain ⟨rfl, -⟩ := Prod.mk.inj (Option.some.inj h)
        exact fromJson_nested trivial
      · obtain ⟨⟨ms, r⟩, members, h⟩ := Option.bind_eq_some_iff.1 h
        obtain ⟨rfl, -⟩ := Prod.mk.inj (Option.some.inj h)
        refine fromJson_nested ?_
        cases ms with
        | none => trivial
        | some ms => exact fromJson_members? fuel members ms rfl
    · exact fromJson_number? h

theorem fromJson_items? : ∀ (fuel : ℕ) {levels : ℕ} {cs rest : List Char} {ds : List Document},
    items? fuel levels cs = some (ds, rest) → EachItem FromJson ds
  | 0, _, _, _, _, h => nomatch h
  | fuel + 1, levels, cs, rest, ds, h => by
    rw [items?] at h
    obtain ⟨⟨d, r⟩, first, h⟩ := Option.bind_eq_some_iff.1 h
    dsimp only at h
    split at h
    · obtain ⟨⟨ds', r⟩, others, h⟩ := Option.bind_eq_some_iff.1 h
      obtain ⟨rfl, -⟩ := Prod.mk.inj (Option.some.inj h)
      exact ⟨fromJson_value? fuel first, fromJson_items? fuel others⟩
    · obtain ⟨rfl, -⟩ := Prod.mk.inj (Option.some.inj h)
      exact ⟨fromJson_value? fuel first, trivial⟩
    · simp at h

theorem fromJson_members? : ∀ (fuel : ℕ) {levels : ℕ} {cs rest : List Char}
    {ms : Option (List (Document × Document))},
    members? fuel levels cs = some (ms, rest) → ∀ ms' ∈ ms, EachMember FromJson ms'
  | 0, _, _, _, _, h => nomatch h
  | fuel + 1, levels, cs, rest, ms, h => by
    rw [members?] at h
    split at h
    · obtain ⟨⟨us, r⟩, -, h⟩ := Option.bind_eq_some_iff.1 h
      dsimp only at h
      split at h
      · obtain ⟨⟨d, r⟩, first, h⟩ := Option.bind_eq_some_iff.1 h
        have value := fromJson_value? fuel first
        dsimp only at h
        split at h
        · obtain ⟨⟨ms', r⟩, others, h⟩ := Option.bind_eq_some_iff.1 h
          obtain ⟨rfl, -⟩ := Prod.mk.inj (Option.some.inj h)
          intro after given
          obtain ⟨m, named, given⟩ := Option.bind_eq_some_iff.1 given
          obtain ⟨ms', some_members, given⟩ := Option.bind_eq_some_iff.1 given
          obtain rfl := Option.some.inj given
          obtain ⟨k, text, rfl⟩ := Option.map_eq_some_iff.1 named
          obtain ⟨s, -, rfl⟩ := Option.map_eq_some_iff.1 text
          exact ⟨trivial, value, fromJson_members? fuel others ms' some_members⟩
        · obtain ⟨rfl, -⟩ := Prod.mk.inj (Option.some.inj h)
          cases joinUnits us with
          | none => simp
          | some s => simpa [EachMember] using ⟨trivial, value⟩
        · simp at h
      · simp at h
    · simp at h
end

end Reader

theorem fromJson_read? {text : String} {d : Document} (h : read? text = some d) :
    Each FromJson d := by
  obtain ⟨⟨d', rest⟩, value, h⟩ := Option.bind_eq_some_iff.1 h
  dsimp only at h
  split at h
  · obtain rfl := Option.some.inj h
    exact Reader.fromJson_value? _ value
  · simp at h

end Json

namespace Yaml

theorem readable_scalarDocument (p : Properties) (how : Presentation) (s : String) :
    Each Readable (scalarDocument p how s) := by
  have typed (isOfType : Bool) : Each Readable (if isOfType then .plain s else .unreadable) := by
    split <;> trivial
  simp only [scalarDocument]
  split
  · split <;> trivial
  · exact typed _
  · exact typed _
  · exact typed _
  · split <;> trivial
  · split <;> trivial

theorem readable_tagged (p : Properties) {d : Document} (h : Each Readable d) :
    Each Readable (tagged p d) := by
  rw [tagged]
  split
  · trivial
  · exact h

def ReadableAnchors (anchors : Anchors) : Prop := ∀ a ∈ anchors, Each Readable a.2

theorem readableAnchors_append {name : Option String} {d : Document} {anchors : Anchors}
    (h : Each Readable d) (before : ReadableAnchors anchors) :
    ReadableAnchors ((name.map fun a => (a, d)).toList ++ anchors) := by
  cases name with
  | none => exact before
  | some a =>
    rintro b (_ | ⟨_, mem⟩)
    · exact h
    · exact before b mem

mutual
theorem readable_document? : ∀ (n : Node) {anchors anchors' : Anchors} {d : Document},
    n.document? anchors = some (d, anchors') → ReadableAnchors anchors →
    Each Readable d ∧ ReadableAnchors anchors'
  | .alias name, anchors, _, _, h, before => by
    obtain ⟨d, there, same⟩ := Option.map_eq_some_iff.1 h
    obtain ⟨rfl, rfl⟩ := Prod.mk.inj same
    obtain ⟨l, r, split, -⟩ := List.lookup_eq_some_iff.1 there
    exact ⟨before (name, d) (by simp [split]), before⟩
  | .scalar p how s, _, _, _, h, before => by
    obtain ⟨rfl, rfl⟩ := Prod.mk.inj (Option.some.inj h)
    have scalar := readable_scalarDocument p how s
    exact ⟨scalar, readableAnchors_append scalar before⟩
  | .sequence p ns, _, _, _, h, before => by
    obtain ⟨⟨ds, inner⟩, items, h⟩ := Option.bind_eq_some_iff.1 h
    obtain ⟨rfl, rfl⟩ := Prod.mk.inj (Option.some.inj h)
    obtain ⟨each, after⟩ := readable_itemDocuments? ns items (readableAnchors_append trivial before)
    have collection := readable_tagged p (d := .sequence ds) each
    exact ⟨collection, readableAnchors_append collection after⟩
  | .mapping p ms, _, _, _, h, before => by
    obtain ⟨⟨ds, inner⟩, members, h⟩ := Option.bind_eq_some_iff.1 h
    obtain ⟨rfl, rfl⟩ := Prod.mk.inj (Option.some.inj h)
    obtain ⟨each, after⟩ := readable_memberDocuments? ms members
      (readableAnchors_append trivial before)
    have collection := readable_tagged p (d := .mapping ds) each
    exact ⟨collection, readableAnchors_append collection after⟩

theorem readable_itemDocuments? : ∀ (ns : List Node) {anchors anchors' : Anchors}
    {ds : List Document}, itemDocuments? anchors ns = some (ds, anchors') →
    ReadableAnchors anchors → EachItem Readable ds ∧ ReadableAnchors anchors'
  | [], _, _, _, h, before => by
    obtain ⟨rfl, rfl⟩ := Prod.mk.inj (Option.some.inj h)
    exact ⟨trivial, before⟩
  | n :: ns, _, _, _, h, before => by
    obtain ⟨⟨d, after⟩, first, h⟩ := Option.bind_eq_some_iff.1 h
    obtain ⟨⟨ds, last⟩, others, h⟩ := Option.bind_eq_some_iff.1 h
    obtain ⟨rfl, rfl⟩ := Prod.mk.inj (Option.some.inj h)
    obtain ⟨each, before⟩ := readable_document? n first before
    obtain ⟨rest, before⟩ := readable_itemDocuments? ns others before
    exact ⟨⟨each, rest⟩, before⟩

theorem readable_memberDocuments? : ∀ (ms : List (Node × Node)) {anchors anchors' : Anchors}
    {ds : List (Document × Document)}, memberDocuments? anchors ms = some (ds, anchors') →
    ReadableAnchors anchors → EachMember Readable ds ∧ ReadableAnchors anchors'
  | [], _, _, _, h, before => by
    obtain ⟨rfl, rfl⟩ := Prod.mk.inj (Option.some.inj h)
    exact ⟨trivial, before⟩
  | (k, v) :: ms, _, _, _, h, before => by
    obtain ⟨⟨dk, afterName⟩, name, h⟩ := Option.bind_eq_some_iff.1 h
    obtain ⟨⟨dv, afterValue⟩, value, h⟩ := Option.bind_eq_some_iff.1 h
    obtain ⟨⟨ds, last⟩, others, h⟩ := Option.bind_eq_some_iff.1 h
    obtain ⟨rfl, rfl⟩ := Prod.mk.inj (Option.some.inj h)
    obtain ⟨eachName, before⟩ := readable_document? k name before
    obtain ⟨eachValue, before⟩ := readable_document? v value before
    obtain ⟨rest, before⟩ := readable_memberDocuments? ms others before
    exact ⟨⟨eachName, eachValue, rest⟩, before⟩
end

theorem readable_read? {text : String} {d : Document} (h : read? text = some d) :
    Each Readable d := by
  simp only [read?] at h
  generalize (if text.toList.head?.map Char.toNat = some 0xFEFF then _ else _) = cs at h
  split at h
  · simp at h
  · obtain ⟨tokens, -, h⟩ := Option.bind_eq_some_iff.1 h
    obtain ⟨node, -, h⟩ := Option.bind_eq_some_iff.1 h
    split at h
    · obtain rfl := Option.some.inj h
      trivial
    · next n =>
      obtain ⟨⟨d', anchors⟩, document, h⟩ := Option.bind_eq_some_iff.1 h
      obtain rfl := Option.some.inj h
      exact each_limited trivial d' _ (readable_document? n document nofun).1

end Yaml

theorem FileFormat.readable_read? {format : FileFormat} {text : String} {d : Document}
    (h : format.read? text = some d) : Each Readable d := by
  cases format with
  | json => exact each_mono readable_of_fromJson d (Json.fromJson_read? h)
  | yaml => exact Yaml.readable_read? h

end CredentialSchema

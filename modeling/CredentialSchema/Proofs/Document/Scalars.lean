import CredentialSchema.Proofs.Document.Limited
import CredentialSchema.Proofs.Json.Text
import CredentialSchema.Proofs.Lists

/-!
Scalars of documents. Whatever a reader makes, its integers have 64 bits; what it makes of JSON
text has besides no plain scalars and no floats but numbers. Limiting the nesting and settling
plain scalars keep this, and the loaders only look at parts. So a value that was loaded from any
text can be written and read again.
-/
namespace CredentialSchema

open Yaml (limited limitedItems limitedMembers)

namespace Document

mutual
/-- Every scalar of a document has a property. -/
def Each (P : Document → Prop) : Document → Prop
  | .sequence ds => EachItem P ds
  | .mapping ms => EachMember P ms
  | d => P d

def EachItem (P : Document → Prop) : List Document → Prop
  | [] => True
  | d :: ds => Each P d ∧ EachItem P ds

def EachMember (P : Document → Prop) : List (Document × Document) → Prop
  | [] => True
  | (k, d) :: ms => Each P k ∧ Each P d ∧ EachMember P ms
end

/-- A scalar that a reader makes: an integer has 64 bits. -/
def Readable : Document → Prop
  | .number n => n.InRange
  | _ => True

/-- A scalar that JSON text has. -/
def FromJson : Document → Prop
  | .number n => n.InRange
  | .special _ => False
  | .plain _ => False
  | _ => True

variable {P Q : Document → Prop}

theorem eachItem_iff {ds : List Document} : EachItem P ds ↔ ∀ d ∈ ds, Each P d := by
  induction ds with
  | nil => simp [EachItem]
  | cons d ds ih => simp [EachItem, ih]

theorem eachMember_iff {ms : List (Document × Document)} :
    EachMember P ms ↔ ∀ m ∈ ms, Each P m.1 ∧ Each P m.2 := by
  induction ms with
  | nil => simp [EachMember]
  | cons m ms ih => simp [EachMember, ih, and_assoc]

mutual
theorem each_mono (mono : ∀ d, P d → Q d) : ∀ d : Document, Each P d → Each Q d
  | .sequence ds, h => eachItem_mono mono ds h
  | .mapping ms, h => eachMember_mono mono ms h
  | .null, h | .bool _, h | .number _, h | .special _, h | .text _, h | .plain _, h
  | .unreadable, h => mono _ h

theorem eachItem_mono (mono : ∀ d, P d → Q d) : ∀ ds : List Document, EachItem P ds → EachItem Q ds
  | [], _ => trivial
  | d :: ds, h => ⟨each_mono mono d h.1, eachItem_mono mono ds h.2⟩

theorem eachMember_mono (mono : ∀ d, P d → Q d) :
    ∀ ms : List (Document × Document), EachMember P ms → EachMember Q ms
  | [], _ => trivial
  | (k, d) :: ms, h =>
    ⟨each_mono mono k h.1, each_mono mono d h.2.1, eachMember_mono mono ms h.2.2⟩
end

theorem readable_of_fromJson (d : Document) (h : FromJson d) : Readable d := by
  cases d <;> trivial

mutual
theorem each_limited (unreadable : P .unreadable) : ∀ (d : Document) (levels : Nat), Each P d →
    Each P (limited levels d)
  | .sequence ds, levels, h => by
    rw [limited]
    split
    · exact unreadable
    · exact eachItem_limited unreadable ds (levels - 1) h
  | .mapping ms, levels, h => by
    rw [limited]
    split
    · exact unreadable
    · exact eachMember_limited unreadable ms (levels - 1) h
  | .null, _, h | .bool _, _, h | .number _, _, h | .special _, _, h | .text _, _, h
  | .plain _, _, h | .unreadable, _, h => h

theorem eachItem_limited (unreadable : P .unreadable) : ∀ (ds : List Document) (levels : Nat),
    EachItem P ds → EachItem P (limitedItems levels ds)
  | [], _, _ => trivial
  | d :: ds, levels, h =>
    ⟨each_limited unreadable d levels h.1, eachItem_limited unreadable ds levels h.2⟩

theorem eachMember_limited (unreadable : P .unreadable) :
    ∀ (ms : List (Document × Document)) (levels : Nat),
    EachMember P ms → EachMember P (limitedMembers levels ms)
  | [], _, _ => trivial
  | (k, d) :: ms, levels, h => ⟨each_limited unreadable k levels h.1,
    each_limited unreadable d levels h.2.1, eachMember_limited unreadable ms levels h.2.2⟩
end

/-- What a loader made of a document with such scalars. -/
def Loads (P : Document → Prop) (read : Document → Option α) (a : α) : Prop :=
  ∃ d, Each P d ∧ read d = some a

theorem loads_list? {read : Document → Option α} {d : Document} {as : List α}
    (h : d.list? read = some as) (each : Each P d) : ∀ a ∈ as, Loads P read a := by
  rw [list?.eq_def] at h
  split at h
  · intro a mem
    obtain ⟨d, here, same⟩ := exists_of_mem_mapM h a mem
    exact ⟨d, eachItem_iff.1 each d here, same⟩
  · split at h
    · obtain rfl := Option.some.inj h
      simp
    · simp at h
  · simp at h

theorem each_fields? {names : List String} {d : Document} {f : Fields}
    (h : d.fields? names = some f) (each : Each P d) : ∀ m ∈ f.members, Each P m.2 := by
  rw [fields?.eq_def] at h
  split at h
  · next ms =>
    obtain ⟨told, read, h⟩ := Option.bind_eq_some_iff.1 h
    have values : ∀ m ∈ told, Each P m.2 := by
      intro m mem
      obtain ⟨m', here, same⟩ := exists_of_mem_mapM read m mem
      obtain ⟨k, -, rfl⟩ := Option.map_eq_some_iff.1 same
      exact (eachMember_iff.1 each m' here).2
    dsimp only at h
    split at h
    · obtain rfl := Option.some.inj h
      intro m mem
      obtain ⟨m', here, same⟩ := List.mem_filterMap.1 mem
      obtain ⟨k, -, rfl⟩ := Option.map_eq_some_iff.1 same
      exact values m' here
    · simp at h
  · split at h
    · obtain rfl := Option.some.inj h
      rintro ⟨name, d⟩ mem
      exact eachItem_iff.1 each d (List.of_mem_zip mem).2
    · simp at h
  · split at h
    · obtain rfl := Option.some.inj h
      simp
    · simp at h
  · simp at h

end Document

namespace Fields

open Document (Each Loads)

variable {P : Document → Prop} {f : Fields} (each : ∀ m ∈ f.members, Each P m.2) {name : String}
  {read : Document → Option α} {a : α}
include each

theorem each_get? {d : Document} (h : f.get? name = some d) : Each P d := by
  obtain ⟨before, after, same, -⟩ := List.lookup_eq_some_iff.1 h
  exact each (name, d) (by simp [same])

theorem loads_required (h : f.required name read = some a) : Loads P read a := by
  obtain ⟨d, here, same⟩ := Option.bind_eq_some_iff.1 h
  exact ⟨d, each_get? each here, same⟩

theorem loads_withDefault {default : α} (h : f.withDefault name default read = some a) :
    a = default ∨ Loads P read a := by
  rw [withDefault] at h
  split at h
  · exact .inl (Option.some.inj h).symm
  · next d here => exact .inr ⟨d, each_get? each here, h⟩

theorem loads_optional (h : f.optional name read = some (some a)) : Loads P read a := by
  rw [optional] at h
  split at h
  · simp at h
  · next d here =>
    rw [Document.optional?] at h
    split at h
    · simp at h
    · exact ⟨d, each_get? each here, by simpa using h⟩

end Fields
namespace Json.Value

theorem distinctItems_iff {vs : List Value} : DistinctItems vs ↔ ∀ v ∈ vs, v.Distinct := by
  induction vs with
  | nil => simp [DistinctItems]
  | cons v vs ih => simp [DistinctItems, ih]

theorem distinctMembers_iff {ms : List (String × Value)} :
    DistinctMembers ms ↔ ∀ m ∈ ms, m.2.Distinct := by
  induction ms with
  | nil => simp [DistinctMembers]
  | cons m ms ih => simp [DistinctMembers, ih]

theorem inRangeItems_iff {vs : List Value} : InRangeItems vs ↔ ∀ v ∈ vs, v.InRange := by
  induction vs with
  | nil => simp [InRangeItems]
  | cons v vs ih => simp [InRangeItems, ih]

theorem inRangeMembers_iff {ms : List (String × Value)} :
    InRangeMembers ms ↔ ∀ m ∈ ms, m.2.InRange := by
  induction ms with
  | nil => simp [InRangeMembers]
  | cons m ms ih => simp [InRangeMembers, ih]

theorem storable_array {vs : List Value} (h : ∀ v ∈ vs, v.Storable) : (array vs).Storable :=
  ⟨distinctItems_iff.2 fun v mem => (h v mem).distinct,
    inRangeItems_iff.2 fun v mem => (h v mem).inRange⟩

theorem storable_object {ms : List (String × Value)} (names : (ms.map (·.1)).Nodup)
    (h : ∀ m ∈ ms, m.2.Storable) : (object ms).Storable :=
  ⟨⟨names, distinctMembers_iff.2 fun m mem => (h m mem).distinct⟩,
    inRangeMembers_iff.2 fun m mem => (h m mem).inRange⟩

end Json.Value

namespace Document

theorem names_setMember {ms : List (String × Json.Value)} (names : (ms.map (·.1)).Nodup)
    (k : String) (v : Json.Value) : ((setMember ms k v).map (·.1)).Nodup := by
  rw [setMember]
  split
  · have same : (ms.map fun m => if m.1 == k then (k, v) else m).map (·.1) = ms.map (·.1) := by
      rw [List.map_map]
      refine List.map_congr_left fun m _ => ?_
      by_cases same : m.1 = k <;> simp [same]
    rwa [same]
  · next absent =>
    rw [List.map_append, List.nodup_append]
    refine ⟨names, by simp, fun name mem other isNew same => absent ?_⟩
    obtain ⟨m, here, rfl⟩ := List.mem_map.1 mem
    rw [List.any_eq_true]
    exact ⟨m, here, by simpa using same.trans (by simpa using isNew)⟩

theorem mem_setMember {ms : List (String × Json.Value)} {k : String} {v : Json.Value}
    {m : String × Json.Value} (h : m ∈ setMember ms k v) : m = (k, v) ∨ m ∈ ms := by
  rw [setMember] at h
  split at h
  · obtain ⟨m', here, rfl⟩ := List.mem_map.1 h
    split
    · exact .inl rfl
    · exact .inr here
  · simpa [or_comm] using h

theorem inRange_of_fits {n : Int} (h : Plain.fits 64 n = true) :
    (Json.Number.integer n).InRange := by
  simp only [Plain.fits, Bool.and_eq_true, Bool.or_eq_true, decide_eq_true_eq, Nat.pow_eq] at h
  simp only [Json.Number.InRange]
  omega

theorem each_resolve (s : String) : Each Readable (Plain.resolve s) := by
  rw [Plain.resolve]
  split
  · trivial
  · split
    · trivial
    · dsimp only
      split
      · split
        · next fits => exact inRange_of_fits fits
        · trivial
      · split
        · trivial
        · split <;> trivial

theorem storable_resolve {s : String} {v : Json.Value}
    (h : toValue? (.plain s) = some v) : v.Storable := by
  have readable := each_resolve s
  rw [toValue?] at h
  generalize Plain.resolve s = d at readable h
  cases d with
  | number n =>
    obtain rfl := Option.some.inj h
    exact ⟨trivial, readable⟩
  | null | bool b | special b | text s =>
    obtain rfl := Option.some.inj h
    exact ⟨trivial, trivial⟩
  | plain | sequence | mapping | unreadable => exact absurd h nofun

mutual
theorem storable_toValue? : ∀ (d : Document) {v : Json.Value}, toValue? d = some v →
    Each Readable d → v.Storable
  | .null, _, h, _ | .bool _, _, h, _ | .special _, _, h, _ | .text _, _, h, _ => by
    obtain rfl := Option.some.inj h
    exact ⟨trivial, trivial⟩
  | .number n, _, h, each => by
    obtain rfl := Option.some.inj h
    exact ⟨trivial, each⟩
  | .plain s, _, h, _ => storable_resolve h
  | .sequence ds, _, h, each => by
    obtain ⟨vs, items, rfl⟩ := Option.map_eq_some_iff.1 h
    exact Json.Value.storable_array (storable_toItems? ds items each)
  | .mapping ms, _, h, each => by
    obtain ⟨vs, members, rfl⟩ := Option.map_eq_some_iff.1 h
    have stored := storable_toMembers? ms members each List.nodup_nil nofun
    exact Json.Value.storable_object stored.1 stored.2
  | .unreadable, _, h, _ => nomatch h

theorem storable_toItems? : ∀ (ds : List Document) {vs : List Json.Value}, toItems? ds = some vs →
    EachItem Readable ds → ∀ v ∈ vs, v.Storable
  | [], _, h, _ => by
    obtain rfl := Option.some.inj h
    simp
  | d :: ds, _, h, each => by
    obtain ⟨v, first, h⟩ := Option.bind_eq_some_iff.1 h
    obtain ⟨vs, others, h⟩ := Option.bind_eq_some_iff.1 h
    obtain rfl := Option.some.inj h
    rintro w (_ | ⟨_, mem⟩)
    · exact storable_toValue? d first each.1
    · exact storable_toItems? ds others each.2 w mem

theorem storable_toMembers? : ∀ (ms : List (Document × Document))
    {before after : List (String × Json.Value)}, toMembers? before ms = some after →
    EachMember Readable ms → (before.map (·.1)).Nodup → (∀ m ∈ before, m.2.Storable) →
    (after.map (·.1)).Nodup ∧ ∀ m ∈ after, m.2.Storable
  | [], _, _, h, _, names, values => by
    obtain rfl := Option.some.inj h
    exact ⟨names, values⟩
  | (k, d) :: ms, before, after, h, each, names, values => by
    obtain ⟨name, -, h⟩ := Option.bind_eq_some_iff.1 h
    obtain ⟨v, first, h⟩ := Option.bind_eq_some_iff.1 h
    have stored := storable_toValue? d first each.2.1
    refine storable_toMembers? ms h each.2.2 (names_setMember names name v) fun m mem => ?_
    rcases mem_setMember mem with rfl | mem
    · exact stored
    · exact values m mem
end

mutual
theorem each_settle? (resolve : ∀ s, P (.plain s) → Each P (Plain.resolve s)) :
    ∀ (d : Document) {d' : Document}, settle? d = some d' → Each P d → Each P d'
  | .plain s, d', h, each => by
    rw [settle?] at h
    split at h
    · simp at h
    · obtain rfl := Option.some.inj h
      exact resolve s each
  | .sequence ds, _, h, each => by
    obtain ⟨ds', items, rfl⟩ := Option.map_eq_some_iff.1 h
    exact each_settleItems? resolve ds items each
  | .mapping ms, _, h, each => by
    obtain ⟨ms', members, rfl⟩ := Option.map_eq_some_iff.1 h
    exact each_settleMembers? resolve ms members each
  | .null, _, h, each | .bool _, _, h, each | .number _, _, h, each | .special _, _, h, each
  | .text _, _, h, each => by
    obtain rfl := Option.some.inj h
    exact each
  | .unreadable, _, h, _ => nomatch h

theorem each_settleItems? (resolve : ∀ s, P (.plain s) → Each P (Plain.resolve s)) :
    ∀ (ds : List Document) {ds' : List Document}, settleItems? ds = some ds' → EachItem P ds →
    EachItem P ds'
  | [], _, h, _ => by
    obtain rfl := Option.some.inj h
    trivial
  | d :: ds, _, h, each => by
    obtain ⟨d', first, h⟩ := Option.bind_eq_some_iff.1 h
    obtain ⟨ds', others, h⟩ := Option.bind_eq_some_iff.1 h
    obtain rfl := Option.some.inj h
    exact ⟨each_settle? resolve d first each.1, each_settleItems? resolve ds others each.2⟩

theorem each_settleMembers? (resolve : ∀ s, P (.plain s) → Each P (Plain.resolve s)) :
    ∀ (ms : List (Document × Document)) {ms' : List (Document × Document)},
    settleMembers? ms = some ms' → EachMember P ms → EachMember P ms'
  | [], _, h, _ => by
    obtain rfl := Option.some.inj h
    trivial
  | (k, d) :: ms, _, h, each => by
    obtain ⟨k', name, h⟩ := Option.bind_eq_some_iff.1 h
    obtain ⟨d', first, h⟩ := Option.bind_eq_some_iff.1 h
    obtain ⟨ms', others, h⟩ := Option.bind_eq_some_iff.1 h
    obtain rfl := Option.some.inj h
    exact ⟨each_settle? resolve k name each.1, each_settle? resolve d first each.2.1,
      each_settleMembers? resolve ms others each.2.2⟩
end

end Document
end CredentialSchema

import Mathlib.Tactic.TFAE
import CredentialSchema.Proofs.Property.Focus
import CredentialSchema.Proofs.Property.Path
import CredentialSchema.Tree.Basic

/-!
All lookups agree. Where no identifier comes twice, an identifier is listed in a tree exactly if it
is found, if what it names can be edited, and if there is a path to it. What is found is what an
edit gets hold of and where the path ends, and everything below it is listed in one piece.
-/
namespace CredentialSchema.Tree

open Property (Splice Way Focus)

variable {t : Tree} {id : PropertyId} {p : Property}

/-- An edit of the property with this identifier gets hold of `p`, in its place: whatever it makes
of `p` stands there afterwards, and all else is as it was. -/
def Opens (t : Tree) (id : PropertyId) (p : Property) : Prop :=
  ∃ forest : Property → List Property, t.roots = forest p ∧
    (∀ q, Splice [p] [q] t.roots (forest q)) ∧
      ∀ f, t.modify? id f = some (t.advance (forest (f p)))

theorem opens_of_find? (found : t.find? id = some p) : t.Opens id p := by
  obtain ⟨forest, whole, focus⟩ := Property.exists_focus_of_findInList? found
  obtain ⟨-, rfl⟩ := Property.mem_subtreeOfList_of_find? found
  refine ⟨forest, whole, fun q => ?_, fun f => ?_⟩
  · rw [whole]
    exact focus.splice (.here [] [])
  · rw [modify?, whole, focus.reaches.modify (Property.modify?_self f p)]
    rfl

theorem find?_eq_none_iff_not_mem : t.find? id = none ↔ id ∉ t.ids :=
  Property.findInList?_eq_none_iff id t.roots

theorem modify?_eq_none_iff_not_mem (f : Property → Property) :
    t.modify? id f = none ↔ id ∉ t.ids := by
  rw [modify?, Option.map_eq_none_iff, Property.modifyInList?_eq_none_iff]
  exact find?_eq_none_iff_not_mem

theorem path?_eq_none_iff_not_mem : t.path? id = none ↔ id ∉ t.ids :=
  Property.pathInList?_eq_none_iff id t.roots

theorem exists_way_of_find? (distinct : t.ids.Nodup) (found : t.find? id = some p) :
    ∃ path, t.path? id = some path ∧ Way t.roots path p := by
  obtain ⟨mem, rfl⟩ := Property.mem_subtreeOfList_of_find? found
  obtain ⟨top, isRoot, below⟩ := Property.mem_subtreeOfList.1 mem
  obtain ⟨path, way⟩ := Property.exists_way below isRoot
  exact ⟨path, way.pathInList?_eq distinct, way⟩

theorem getLast?_of_path? (distinct : t.ids.Nodup) {path : List PropertyId}
    (h : t.path? id = some path) : path.getLast? = some id := by
  cases found : t.find? id with
  | none =>
    rw [path?_eq_none_iff_not_mem.2 (find?_eq_none_iff_not_mem.1 found)] at h
    exact absurd h nofun
  | some p =>
    obtain ⟨path', taken, way⟩ := exists_way_of_find? distinct found
    obtain ⟨-, rfl⟩ := Property.mem_subtreeOfList_of_find? found
    obtain rfl := Option.some.inj (taken.symm.trans h)
    exact way.getLast?_eq

theorem parent?_eq_some_iff (distinct : t.ids.Nodup) {holder : PropertyId} :
    t.parent? id = some holder ↔ ∃ front, t.path? id = some (front ++ [holder, id]) := by
  rw [parent?, Option.bind_eq_some_iff]
  constructor
  · rintro ⟨path, taken, before⟩
    obtain ⟨front, split⟩ := List.getLast?_eq_some_iff.1 before
    have ends := List.dropLast_append_getLast? id (getLast?_of_path? distinct taken)
    refine ⟨front, ?_⟩
    rw [taken, ← ends, split, List.append_assoc]
    rfl
  · rintro ⟨front, taken⟩
    refine ⟨_, taken, ?_⟩
    rw [List.dropLast_append_of_ne_nil (by simp)]
    simp

theorem parent?_eq_none_iff (distinct : t.ids.Nodup) :
    t.parent? id = none ↔ id ∉ t.ids ∨ ∃ p ∈ t.roots, p.id = id := by
  constructor
  · intro h
    refine or_iff_not_imp_left.2 fun listed => ?_
    obtain ⟨p, found⟩ := Option.ne_none_iff_exists'.1 (mt find?_eq_none_iff_not_mem.1 listed)
    obtain ⟨path, taken, way⟩ := exists_way_of_find? distinct found
    have ends := List.dropLast_append_getLast? id (getLast?_of_path? distinct taken)
    rw [parent?, taken, Option.bind_some, List.getLast?_eq_none_iff] at h
    rw [h, List.nil_append] at ends
    subst ends
    exact ⟨p, way.mem_of_singleton, (Property.mem_subtreeOfList_of_find? found).2⟩
  · rintro (absent | ⟨p, isRoot, rfl⟩)
    · rw [parent?, path?_eq_none_iff_not_mem.2 absent]
      rfl
    · rw [parent?, path?, (Way.stop isRoot).pathInList?_eq distinct]
      rfl

theorem exists_segment_of_find? (found : t.find? id = some p) :
    ∃ before after, t.ids = before ++ p.ids ++ after ∧ p.ids.head? = some id := by
  obtain ⟨forest, -, spliced, -⟩ := opens_of_find? found
  obtain ⟨before, after, listed, -⟩ := (spliced p).ids
  obtain ⟨-, rfl⟩ := Property.mem_subtreeOfList_of_find? found
  refine ⟨before, after, ?_, ?_⟩
  · simpa [Tree.ids, Property.idsOfList] using listed
  · obtain ⟨d, ms, e⟩ := p
    rfl

/-- An identifier is in the tree exactly if it is found, if what has it can be edited, and if there
is a path to it. What is found has the identifier, an edit gets hold of it, the path leads to it
from the top level, each step to a member or to the element definition, and the identifiers below it
stand together behind its own. The one before the last on the path is that of its holder, which only
properties at the top and missing ones lack. -/
theorem lookups_agree {t : Tree} (distinct : t.ids.Nodup) (id : PropertyId) :
    [id ∈ t.ids, (t.find? id).isSome, ∃ f, (t.modify? id f).isSome, (t.path? id).isSome].TFAE ∧
      (∀ p, t.find? id = some p → p.id = id ∧ t.Opens id p ∧
        (∃ path, t.path? id = some path ∧ Way t.roots path p) ∧
        ∃ before after, t.ids = before ++ p.ids ++ after ∧ p.ids.head? = some id) ∧
      (∀ holder, t.parent? id = some holder ↔
        ∃ front, t.path? id = some (front ++ [holder, id])) ∧
      (t.parent? id = none ↔ id ∉ t.ids ∨ ∃ p ∈ t.roots, p.id = id) := by
  refine ⟨?_, fun p found => ?_, fun holder => parent?_eq_some_iff distinct,
    parent?_eq_none_iff distinct⟩
  · tfae_have 1 ↔ 2 := by
      rw [← not_iff_not, Option.not_isSome_iff_eq_none, find?_eq_none_iff_not_mem]
    tfae_have 1 ↔ 4 := by
      rw [← not_iff_not, Option.not_isSome_iff_eq_none, path?_eq_none_iff_not_mem]
    tfae_have 1 ↔ 3 := by
      simp only [Option.isSome_iff_ne_none, ne_eq, modify?_eq_none_iff_not_mem, exists_const,
        not_not]
    tfae_finish
  · obtain ⟨-, own⟩ := Property.mem_subtreeOfList_of_find? found
    exact ⟨own, opens_of_find? found, exists_way_of_find? distinct found,
      exists_segment_of_find? found⟩

/-- The tags of an object are an array of objects. What these hold is found through the array, and
their definition is its holder. -/
theorem lookups_agree_tags :
    let node (n : Nat) (name : String) (kind : Kind) (ms : List Property)
        (e : Option Property) : Property := ⟨{ id := ⟨.numbered n⟩, name, kind }, ms, e⟩
    let label := node 4 "label" .string [] none
    let tag := node 3 "tags" .object [label] none
    let home := node 1 "home" .object
      [node 2 "tags" .array [] tag, node 5 "city" .string [] none] none
    let t : Tree := ⟨[node 0 "title" .string [] none, home], 0⟩
    t.ids.Nodup ∧ label.id ∈ t.ids ∧ t.find? label.id = some label ∧ t.Opens label.id label ∧
      t.parent? label.id = some tag.id ∧ t.parent? home.id = none ∧
        ∃ path, t.path? label.id = some path ∧ Way t.roots path label := by
  intro node label tag home t
  have distinct : t.ids.Nodup := by decide +kernel
  obtain ⟨same, located, held, -⟩ := lookups_agree distinct label.id
  obtain ⟨-, -, -, top⟩ := lookups_agree distinct home.id
  have found : t.find? label.id = some label := by decide +kernel
  obtain ⟨-, opens, way, -⟩ := located label found
  have taken : t.path? label.id = some ([home.id, ⟨.numbered 2⟩] ++ [tag.id, label.id]) := by
    decide +kernel
  refine ⟨distinct, (same.out 0 1).2 (by rw [found]; rfl), found, opens, ?_, ?_, way⟩
  · exact (held tag.id).2 ⟨_, taken⟩
  · exact top.2 (.inr ⟨home, by simp [t], rfl⟩)

end CredentialSchema.Tree

import Mathlib.Data.String.Basic
import CredentialSchema.Proofs.Document.Scalars
import CredentialSchema.Proofs.Json.Listing

/-!
Canonical text identifies a value up to the order of members. It tells all that it lists, which is
what the value lists once its members are sorted. In the other direction the sorted members of an
object are the same list in whatever order they came, because names that differ are written
differently.
-/
namespace CredentialSchema.Json

namespace Value

/-- Two values that differ in the order of members at most, at any depth. Numbers are the same if
their canonical texts are, so a whole float is the integer that it equals. -/
inductive Reordered : Value → Value → Prop
  | null : Reordered .null .null
  | bool (b : Bool) : Reordered (.bool b) (.bool b)
  | number {m n : Number} (text : m.canonical = n.canonical) :
    Reordered (.number m) (.number n)
  | string (s : String) : Reordered (.string s) (.string s)
  | array {vs ws : List Value} (items : List.Forall₂ Reordered vs ws) :
    Reordered (.array vs) (.array ws)
  | object {ms ns ns' : List (String × Value)} (order : ns'.Perm ns)
    (names : ms.map Prod.fst = ns'.map Prod.fst)
    (values : List.Forall₂ Reordered (ms.map Prod.snd) (ns'.map Prod.snd)) :
    Reordered (.object ms) (.object ns)

/-- Two members of one name with values that are the same up to order. -/
def SameMember (m n : String × Value) : Prop := m.1 = n.1 ∧ Reordered m.2 n.2

theorem Reordered.of_sameMember {ms ms' ns ns' : List (String × Value)}
    (first : ms'.Perm ms) (second : ns'.Perm ns) (members : List.Forall₂ SameMember ms' ns') :
    Reordered (.object ms) (.object ns) := by
  obtain ⟨ns'', members, order⟩ := List.perm_comp_forall₂ first.symm members
  obtain ⟨names, values⟩ := forall₂_members_iff.1 members
  exact .object (order.trans second) names values

theorem canonicalMembers_perm {ms ns : List (String × Value)} (order : ms.Perm ns) :
    (canonicalMembers ms).Perm (canonicalMembers ns) := by
  rw [canonicalMembers_eq_map, canonicalMembers_eq_map]
  exact order.map _

/-- The text of a value tells the value up to order, and where it ends. -/
def Readable (v : Value) : Prop :=
  ∀ w r s, Ends r → Ends s → v.canonical.toList ++ r = w.canonical.toList ++ s →
    Reordered v w ∧ r = s

theorem reordered_of_alike (le : String → String → Bool) (v : Value) :
    ∀ w : Value, Alike (v.arrange le) (w.arrange le) → Reordered v w := by
  induction v using induct with
  | null =>
    intro w alike
    cases w <;> cases alike
    exact .null
  | bool b =>
    intro w alike
    cases w <;> cases alike
    exact .bool b
  | number n =>
    intro w alike
    cases w <;> cases alike
    case number text => exact .number text
  | string s =>
    intro w alike
    cases w <;> cases alike
    exact .string s
  | array vs each =>
    intro w alike
    rw [arrange_array] at alike
    cases w with
    | array ws =>
      rw [arrange_array] at alike
      cases alike with
      | array items =>
        rw [List.forall₂_map_left_iff, List.forall₂_map_right_iff] at items
        refine .array ((forall₂_mem items).imp ?_)
        rintro v w ⟨mem, -, alike⟩
        exact each v mem w alike
    | null | bool | number | string | object => cases alike
  | object ms each =>
    intro w alike
    rw [arrange_object] at alike
    cases w with
    | object ns =>
      rw [arrange_object] at alike
      cases alike with
      | object names values =>
        have first : (ms.mergeSort fun m n => le m.1 n.1).Perm ms := List.mergeSort_perm _ _
        have second : (ns.mergeSort fun m n => le m.1 n.1).Perm ns := List.mergeSort_perm _ _
        have members := forall₂_members_iff.2 ⟨names, values⟩
        rw [List.forall₂_map_left_iff, List.forall₂_map_right_iff] at members
        refine .of_sameMember first second ((forall₂_mem members).imp ?_)
        rintro m n ⟨mem, -, name, alike⟩
        exact ⟨name, each m (first.mem_iff.1 mem) n.2 alike⟩
    | null | bool | number | string | array => cases alike

theorem readable (v : Value) : Readable v := by
  intro w r s hr hs same
  rw [canonical_eq_inOrder, canonical_eq_inOrder] at same
  obtain ⟨alike, rest⟩ := legible _ _ r s hr hs same
  exact ⟨reordered_of_alike writtenLe v w alike, rest⟩

theorem mergeSort_eq_of_perm {es fs : List Entry} (order : es.Perm fs)
    (distinct : (es.map Prod.fst).Nodup) : es.mergeSort Entry.le = fs.mergeSort Entry.le := by
  have sorted := pairwise_mergeSort_key Entry.le Prod.fst
    (fun a b => by rw [Entry.le, decide_eq_true_eq])
  have first := List.mergeSort_perm es Entry.le
  have second := List.mergeSort_perm fs Entry.le
  refine List.Perm.eq_of_pairwise ?_ (sorted es) (sorted fs)
    (first.trans (order.trans second.symm))
  intro a b ha hb below above
  exact List.inj_on_of_nodup_map distinct (first.mem_iff.1 ha)
    (order.mem_iff.2 (second.mem_iff.1 hb)) (le_antisymm below above)

theorem canonical_object_of_perm {ms ns : List (String × Value)}
    (order : (canonicalMembers ms).Perm (canonicalMembers ns))
    (distinct : (ms.map Prod.fst).Nodup) :
    canonical (.object ms) = canonical (.object ns) := by
  have written : (canonicalMembers ms).map Prod.fst = (ms.map Prod.fst).map quote := by
    simp [canonicalMembers_eq_map]
  have names : ((canonicalMembers ms).map Prod.fst).Nodup := by
    rw [written]
    exact distinct.map fun _ _ => quote_inj
  rw [canonical, canonical, mergeSort_eq_of_perm order names]

mutual
theorem canonical_of_reordered : ∀ v w : Value, Reordered v w → v.Distinct → w.Distinct →
    v.canonical = w.canonical
  | .null, w, h, _, _ => by
    cases h with
    | null => rfl
  | .bool b, w, h, _, _ => by
    cases h with
    | bool => rfl
  | .number n, w, h, _, _ => by
    cases h with
    | number text => exact text
  | .string s, w, h, _, _ => by
    cases h with
    | string => rfl
  | .array vs, w, h, hv, hw => by
    cases h with
    | array items => rw [canonical, canonical, canonicalItems_of_reordered vs _ items hv hw]
  | .object ms, w, h, hv, hw => by
    cases h with
    | @object _ ns ns' order names values =>
      have second : DistinctMembers ns' :=
        distinctMembers_iff.2 fun m mem => distinctMembers_iff.1 hw.2 m (order.mem_iff.1 mem)
      have entries : (canonicalMembers ms).Perm (canonicalMembers ns) := by
        rw [canonicalMembers_of_reordered ms ns' names values hv.2 second]
        exact canonicalMembers_perm order
      exact canonical_object_of_perm entries hv.1

theorem canonicalItems_of_reordered : ∀ vs ws : List Value, List.Forall₂ Reordered vs ws →
    DistinctItems vs → DistinctItems ws → canonicalItems vs = canonicalItems ws
  | [], _, .nil, _, _ => rfl
  | v :: vs, w :: ws, .cons item items, hv, hw => by
    rw [canonicalItems, canonicalItems, canonical_of_reordered v w item hv.1 hw.1,
      canonicalItems_of_reordered vs ws items hv.2 hw.2]

theorem canonicalMembers_of_reordered : ∀ ms ns : List (String × Value),
    ms.map Prod.fst = ns.map Prod.fst →
    List.Forall₂ Reordered (ms.map Prod.snd) (ns.map Prod.snd) →
    DistinctMembers ms → DistinctMembers ns → canonicalMembers ms = canonicalMembers ns
  | [], [], _, _, _, _ => rfl
  | (k, v) :: ms, (l, w) :: ns, names, .cons value values, hv, hw => by
    obtain ⟨name, others⟩ := List.cons.inj names
    rw [canonicalMembers, canonicalMembers, show k = l from name,
      canonical_of_reordered v w value hv.1 hw.1,
      canonicalMembers_of_reordered ms ns others values hv.2 hw.2]
end

theorem toList_byteArray (b : ByteArray) : b.toList = b.data.toList := by
  have loop (i : ℕ) (r : List UInt8) :
      ByteArray.toList.loop b i r = r.reverse ++ b.data.toList.drop i := by
    fun_induction ByteArray.toList.loop b i r with
    | case1 i r inside ih =>
      have bound : i < b.data.toList.length := inside
      have byte : b.get! i = b.data.toList[i] := by
        obtain ⟨bytes⟩ := b
        exact getElem!_pos bytes i bound
      rw [ih, List.drop_eq_getElem_cons bound, byte, List.reverse_cons, List.append_assoc,
        List.singleton_append]
    | case2 i r outside =>
      have none_left : b.data.toList.length ≤ i := Nat.le_of_not_lt outside
      rw [List.drop_eq_nil_of_le none_left, List.append_nil]
  exact loop 0 []

theorem bytes_inj {s t : String} : s.toUTF8.toList = t.toUTF8.toList ↔ s = t := by
  rw [toList_byteArray, toList_byteArray, Array.toList_inj, ← ByteArray.ext_iff, String.toUTF8,
    String.toUTF8, String.toByteArray_inj]

theorem canonicalBytes_inj {v w : Value} :
    v.canonicalBytes = w.canonicalBytes ↔ v.canonical = w.canonical := bytes_inj

/-- Canonical bytes are equal exactly for values that differ in the order of members at most. -/
theorem canonicalBytes_eq_iff {v w : Value} (hv : v.Distinct) (hw : w.Distinct) :
    v.canonicalBytes = w.canonicalBytes ↔ v.Reordered w := by
  rw [canonicalBytes_inj]
  constructor
  · intro same
    exact (readable v w [] [] ends_nil ends_nil (by rw [same])).1
  · intro reordered
    exact canonical_of_reordered v w reordered hv hw

/-- Two levels in another order, and a whole number with and without a point. -/
theorem canonicalBytes_eq_iff_two_levels :
    let one : Binary64 := ⟨false, Nat.pow 2 52, -52, by decide⟩
    let v : Value := .object [
      ("list", .array [.number (.float one), .object [("y", .null), ("x", .string "ä")]]),
      ("flag", .bool true)]
    let w : Value := .object [
      ("flag", .bool true),
      ("list", .array [.number (.integer 1), .object [("x", .string "ä"), ("y", .null)]])]
    v.Distinct ∧ w.Distinct ∧ v ≠ w ∧ v.canonicalBytes = w.canonicalBytes := by
  intro one v w
  have hv : v.Distinct := by simp [v, Distinct, DistinctMembers, DistinctItems]
  have hw : w.Distinct := by simp [w, Distinct, DistinctMembers, DistinctItems]
  have number : Reordered (.number (.float one)) (.number (.integer 1)) :=
    .number (by decide +kernel)
  have inner : Reordered (.object [("y", .null), ("x", .string "ä")])
      (.object [("x", .string "ä"), ("y", .null)]) :=
    .of_sameMember (.refl _) (.swap _ _ _) (.cons ⟨rfl, .null⟩ (.cons ⟨rfl, .string _⟩ .nil))
  have outer : v.Reordered w :=
    .of_sameMember (.refl _) (.swap _ _ _)
      (.cons ⟨rfl, .array (.cons number (.cons inner .nil))⟩ (.cons ⟨rfl, .bool true⟩ .nil))
  exact ⟨hv, hw, by simp [v, w], (canonicalBytes_eq_iff hv hw).2 outer⟩

end Value
end CredentialSchema.Json

import CredentialSchema.Compile.Artifact
import CredentialSchema.Proofs.Json.Canonical
import CredentialSchema.Proofs.Json.NameOrder

/-!
Canonical text and RFC 8785, which asks for members in the order of the UTF-16 code units of their
names. The canonical text of a value is in this order if no two names of one object are out of
order, and of no other value it is.
-/
namespace CredentialSchema.Json

namespace Value

mutual
/-- The names of each object in a value, at every depth. -/
def levels : Value → List (List String)
  | .array vs => levelsOfItems vs
  | .object ms => ms.map Prod.fst :: levelsOfMembers ms
  | _ => []

def levelsOfItems : List Value → List (List String)
  | [] => []
  | v :: vs => levels v ++ levelsOfItems vs

def levelsOfMembers : List (String × Value) → List (List String)
  | [] => []
  | (_, v) :: ms => levels v ++ levelsOfMembers ms
end

theorem levels_array (vs : List Value) : levels (.array vs) = vs.flatMap levels := by
  rw [levels]
  induction vs with
  | nil => rfl
  | cons v vs ih => rw [levelsOfItems, ih, List.flatMap_cons]

theorem levels_object (ms : List (String × Value)) :
    levels (.object ms) = ms.map Prod.fst :: ms.flatMap fun m => m.2.levels := by
  rw [levels]
  congr
  induction ms with
  | nil => rfl
  | cons m ms ih => rw [levelsOfMembers, ih, List.flatMap_cons]

/-- The members of every object are listed in strictly increasing order of the UTF-16 code units of
their names. -/
def Ascending (v : Value) : Prop :=
  ∀ names ∈ v.levels, names.Pairwise fun k l => units k < units l

/-- No two names of one object are out of order. -/
def InStep (v : Value) : Prop :=
  ∀ names ∈ v.levels, ∀ k ∈ names, ∀ l ∈ names, ¬ OutOfOrder k.toList l.toList

/-- A text lists the members of every object, at every depth, in strictly increasing order of the
UTF-16 code units of their names. -/
def ListsAscending (text : String) : Prop := ∃ v : Value, v.inOrder = text ∧ v.Ascending

/-- Canonical text but for the order of members, which is the one that RFC 8785 asks for. -/
def conforming (v : Value) : String := (v.arrange conformingLe).inOrder

/-- The bytes that are hashed in the order that RFC 8785 asks for. -/
def conformingBytes (v : Value) : List UInt8 := v.conforming.toUTF8.toList

theorem inStep_of_ordinary {v : Value}
    (ordinary : ∀ names ∈ v.levels, ∀ k ∈ names, ∀ c ∈ k.toList, isOrdinary c = true) : v.InStep :=
  fun names level k mem l mem' =>
    not_outOfOrder_of_ordinary (ordinary names level k mem) (ordinary names level l mem')

theorem levels_eq_of_alike (v : Value) : ∀ w, Alike v w → v.levels = w.levels := by
  induction v using induct with
  | null | bool | number | string =>
    intro w alike
    cases alike
    rfl
  | array vs each =>
    intro w alike
    cases alike with
    | @array _ ws items =>
      have levels : vs.map levels = ws.map levels := by
        refine map_eq_map_iff_forall₂.2 ((forall₂_mem items).imp ?_)
        rintro v w ⟨mem, -, alike⟩
        exact each v mem w alike
      rw [levels_array, levels_array, List.flatMap_def, List.flatMap_def, levels]
  | object ms each =>
    intro w alike
    cases alike with
    | @object _ ns names values =>
      have levels : (ms.map fun m => m.2.levels) = ns.map fun n => n.2.levels := by
        refine map_eq_map_iff_forall₂.2
          ((forall₂_mem (forall₂_members_iff.2 ⟨names, values⟩)).imp ?_)
        rintro m n ⟨mem, -, -, alike⟩
        exact each m mem n.2 alike
      rw [levels_object, levels_object, List.flatMap_def, List.flatMap_def, names, levels]

theorem nodup_of_distinct {v : Value} (distinct : v.Distinct) :
    ∀ names ∈ v.levels, names.Nodup := by
  induction v using induct with
  | null | bool | number | string => exact nofun
  | array vs each =>
    rw [levels_array, List.forall_mem_flatMap]
    exact fun v mem => each v mem (distinctItems_iff.1 distinct v mem)
  | object ms each =>
    rw [levels_object, List.forall_mem_cons, List.forall_mem_flatMap]
    exact ⟨distinct.1, fun m mem => each m mem (distinctMembers_iff.1 distinct.2 m mem)⟩

theorem forall_levels_arrange (le : String → String → Bool) (P : List String → Prop) (v : Value) :
    (∀ names ∈ (v.arrange le).levels, P names) ↔ ∀ names ∈ v.levels, P (names.mergeSort le) := by
  induction v using induct with
  | null | bool | number | string => exact ⟨fun _ => nofun, fun _ => nofun⟩
  | array vs each =>
    rw [arrange_array, levels_array, levels_array, List.forall_mem_flatMap, List.forall_mem_flatMap,
      List.forall_mem_map]
    exact forall₂_congr each
  | object ms each =>
    have names : ((ms.mergeSort fun m n => le m.1 n.1).map fun m => (m.1, m.2.arrange le)).map
        Prod.fst = (ms.map Prod.fst).mergeSort le := by
      rw [List.map_map, ← List.map_mergeSort (r := fun m n => le m.1 n.1) (fun _ _ _ _ => rfl)]
      rfl
    rw [arrange_object, levels_object, levels_object, List.forall_mem_cons, List.forall_mem_cons,
      names, List.forall_mem_flatMap, List.forall_mem_flatMap, List.forall_mem_map]
    simp only [List.mem_mergeSort]
    exact and_congr_right fun _ => forall₂_congr each

theorem arrange_congr {le le' : String → String → Bool} {v : Value}
    (same : ∀ names ∈ v.levels, ∀ k ∈ names, ∀ l ∈ names, le k l = le' k l) :
    v.arrange le = v.arrange le' := by
  induction v using induct with
  | null | bool | number | string => rfl
  | array vs each =>
    rw [levels_array, List.forall_mem_flatMap] at same
    rw [arrange_array, arrange_array]
    exact congrArg Value.array (List.map_congr_left fun v mem => each v mem (same v mem))
  | object ms each =>
    rw [levels_object, List.forall_mem_cons, List.forall_mem_flatMap] at same
    have sorted : (ms.mergeSort fun m n => le m.1 n.1) = ms.mergeSort fun m n => le' m.1 n.1 :=
      mergeSort_congr fun m mem n mem' =>
        same.1 m.1 (List.mem_map_of_mem mem) n.1 (List.mem_map_of_mem mem')
    rw [arrange_object, arrange_object, sorted]
    refine congrArg Value.object (List.map_congr_left fun m mem => ?_)
    rw [each m (List.mem_mergeSort.1 mem) (same.2 m (List.mem_mergeSort.1 mem))]

/-! ### The order of canonical text -/

theorem pairwise_mergeSort_of_nodup {names : List String} (distinct : names.Nodup) :
    (names.mergeSort conformingLe).Pairwise fun k l => units k < units l := by
  have sorted := pairwise_mergeSort_key conformingLe units
    (fun k l => by rw [conformingLe, decide_eq_true_eq]) names
  have apart : (names.mergeSort conformingLe).Nodup :=
    (List.mergeSort_perm names conformingLe).nodup_iff.2 distinct
  refine (sorted.and apart).imp ?_
  rintro k l ⟨le, other⟩
  exact lt_of_le_of_ne le fun same => other (units_inj same)

theorem not_outOfOrder_of_pairwise {names : List String}
    (ascending : (names.mergeSort writtenLe).Pairwise fun k l => units k < units l) {k l : String}
    (mem : k ∈ names) (mem' : l ∈ names) : ¬ OutOfOrder k.toList l.toList := by
  have written := pairwise_mergeSort_key writtenLe quote
    (fun k l => by rw [writtenLe, decide_eq_true_eq]) names
  let InOrder (k l : String) : Prop :=
    ¬ OutOfOrder k.toList l.toList ∧ ¬ OutOfOrder l.toList k.toList
  have symm : Std.Symm InOrder := ⟨fun _ _ h => h.symm⟩
  have self (k : String) : InOrder k k := by simp [InOrder, outOfOrder_iff]
  have each : (names.mergeSort writtenLe).Pairwise InOrder := by
    refine (written.and ascending).imp ?_
    rintro k l ⟨le, lt⟩
    simp only [InOrder, outOfOrder_iff]
    exact ⟨fun out => absurd out.2 (not_lt.2 le), fun out => lt_asymm lt out.1⟩
  exact (each.forall_of_forall (fun k _ => self k) (List.mem_mergeSort.2 mem)
    (List.mem_mergeSort.2 mem')).1

theorem listsAscending_inOrder_iff (v : Value) : ListsAscending v.inOrder ↔ v.Ascending := by
  constructor
  · rintro ⟨w, text, ascending⟩
    rwa [Ascending, levels_eq_of_alike w v (alike_of_inOrder_eq text)] at ascending
  · exact fun ascending => ⟨v, rfl, ascending⟩

theorem listsAscending_conforming {v : Value} (distinct : ∀ names ∈ v.levels, names.Nodup) :
    ListsAscending v.conforming := by
  rw [conforming, listsAscending_inOrder_iff, Ascending, forall_levels_arrange conformingLe]
  exact fun names level => pairwise_mergeSort_of_nodup (distinct names level)

theorem canonical_of_inStep {v : Value} (inStep : v.InStep) : v.canonical = v.conforming := by
  rw [canonical_eq_inOrder, conforming]
  refine congrArg inOrder (arrange_congr fun names level k mem l mem' => ?_)
  exact writtenLe_eq_conformingLe (inStep names level k mem l mem')
    (inStep names level l mem' k mem)

theorem inStep_of_listsAscending {v : Value} (ascending : ListsAscending v.canonical) :
    v.InStep := by
  rw [canonical_eq_inOrder, listsAscending_inOrder_iff, Ascending,
    forall_levels_arrange writtenLe] at ascending
  exact fun names level k mem l mem' => not_outOfOrder_of_pairwise (ascending names level) mem mem'

theorem inStep_of_canonicalBytes_eq {v : Value} (distinct : ∀ names ∈ v.levels, names.Nodup)
    (same : v.canonicalBytes = v.conformingBytes) : v.InStep := by
  have text : v.canonical = v.conforming := bytes_inj.1 same
  exact inStep_of_listsAscending (text ▸ listsAscending_conforming distinct)

/-- Canonical text lists members in the order that RFC 8785 asks for, and gives the bytes that are
hashed in that order, exactly if no two names of one object are out of order. -/
theorem canonical_conforms_iff {v : Value} (distinct : v.Distinct) :
    (ListsAscending v.canonical ↔ v.InStep) ∧
      (v.canonicalBytes = v.conformingBytes ↔ v.InStep) := by
  have names := nodup_of_distinct distinct
  refine ⟨⟨inStep_of_listsAscending, fun inStep => ?_⟩,
    inStep_of_canonicalBytes_eq names, fun inStep => ?_⟩
  · exact canonical_of_inStep inStep ▸ listsAscending_conforming names
  · exact bytes_inj.2 (canonical_of_inStep inStep)

/-- Names of letters and digits, some of them outside ASCII, and one name that begins another. -/
theorem canonical_conforms_iff_licence :
    let v : Value := .object [("title", .string "Führerschein"), ("größe", .object []),
      ("list", .array [.object [("b2", .null), ("b", .bool true), ("B", .null)]])]
    v.Distinct ∧ v.InStep ∧ ListsAscending v.canonical ∧ v.canonicalBytes = v.conformingBytes := by
  intro v
  have distinct : v.Distinct := by simp [v, Distinct, DistinctMembers, DistinctItems]
  have ordinary :
      (v.levels.all fun names => names.all fun k => k.toList.all isOrdinary) = true := by
    decide +kernel
  simp only [List.all_eq_true] at ordinary
  have inStep : v.InStep := inStep_of_ordinary ordinary
  obtain ⟨listed, bytes⟩ := canonical_conforms_iff distinct
  exact ⟨distinct, inStep, listed.2 inStep, bytes.2 inStep⟩

/-- A name that goes on with a blank is written before the name that it begins with, in any value
and in a compiled schema. -/
theorem not_listsAscending_blank :
    let v : Value := .object [("a", .number (.integer 1)), ("a b", .number (.integer 2))]
    let t : Tree := ⟨[.fresh ⟨.numbered 0⟩ .string "a", .fresh ⟨.numbered 1⟩ .string "a b"], 0⟩
    let schema := (SchemaPass.compile t {}).document
    (¬ ListsAscending v.canonical ∧ v.canonicalBytes ≠ v.conformingBytes) ∧
      ¬ ListsAscending schema.canonical ∧ schema.canonicalBytes ≠ schema.conformingBytes := by
  intro v t schema
  have blank : OutOfOrder "a".toList "a b".toList := .cons (.ends (.inl rfl))
  have out {w : Value} (level : ["a", "a b"] ∈ w.levels) : ¬ w.InStep := fun inStep =>
    inStep _ level "a" (by simp) "a b" (by simp) blank
  have inValue : ["a", "a b"] ∈ v.levels := by decide +kernel
  have inSchema : ["a", "a b"] ∈ schema.levels := by decide +kernel
  refine ⟨⟨fun listed => ?_, fun same => ?_⟩, fun listed => ?_, fun same => ?_⟩
  · exact out inValue (inStep_of_listsAscending listed)
  · exact out inValue (inStep_of_canonicalBytes_eq (by decide +kernel) same)
  · exact out inSchema (inStep_of_listsAscending listed)
  · exact out inSchema (inStep_of_canonicalBytes_eq (by decide +kernel) same)

end Value
end CredentialSchema.Json

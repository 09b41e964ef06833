import CredentialSchema.Compile.Artifact
import CredentialSchema.Proofs.Compile.Keywords

/-!
Checked schemas. Compiled schemas have keywords of a few shapes, whose values always have their
forms; they refer to nothing, and no name in a tree becomes an identifier. What validation uses of
them it can use, patterns apart, which are written as they are given. So whether a project gives a
publishable schema is decided by the patterns that the schema shows and by nothing else in its tree.
-/
namespace CredentialSchema

open Json (Value)
open SchemaPass

namespace SchemaCheck

theorem areNames_map_string {names : List String} (nodup : names.Nodup) :
    areNames (.array (names.map .string)) = true := by
  simp [areNames, Value.asString?, List.filterMap_map, Function.comp_def, nodup]

theorem form_keyword {m : String × Value} (h : Keyword m) : ∃ f, form? m.1 = some f ∧
    f.admits m.2 = true ∧ ∀ v ∈ f.parts m.2, v ∈ inner m ∨ ∃ b, v = .bool b := by
  cases h with
  | type kind => exact ⟨.types, rfl, by cases kind <;> rfl, List.forall_mem_nil _⟩
  | remark key s =>
    simp only [List.mem_cons, List.not_mem_nil, or_false] at key
    rcases key with rfl | rfl | rfl <;> exact ⟨.string, rfl, rfl, List.forall_mem_nil _⟩
  | count key n =>
    have isCount : isCount (.integer n) = true := decide_eq_true (Int.natCast_nonneg n)
    simp only [List.mem_cons, List.not_mem_nil, or_false] at key
    rcases key with rfl | rfl <;> exact ⟨.count, rfl, isCount, List.forall_mem_nil _⟩
  | bound key n =>
    simp only [List.mem_cons, List.not_mem_nil, or_false] at key
    rcases key with rfl | rfl <;> exact ⟨.number, rfl, rfl, List.forall_mem_nil _⟩
  | step positive => exact ⟨.positive, rfl, positive, List.forall_mem_nil _⟩
  | pattern s => exact ⟨.string, rfl, rfl, List.forall_mem_nil _⟩
  | choices vs => exact ⟨.list, rfl, rfl, List.forall_mem_nil _⟩
  | properties ms => exact ⟨.namedSchemas, rfl, rfl, fun v mem => .inl mem⟩
  | required nodup => exact ⟨.names, rfl, areNames_map_string nodup, List.forall_mem_nil _⟩
  | additional extra =>
    exact ⟨.schema, rfl, rfl, fun v mem => .inr ⟨extra, List.mem_singleton.1 mem⟩⟩
  | items v => exact ⟨.schema, rfl, rfl, fun v mem => .inl mem⟩

theorem isWellFormed_of_isSchema {v : Value} (h : IsSchema v) : isWellFormed v = true := by
  cases h with
  | bool b => rfl
  | object keyword _ =>
    refine List.all_eq_true.2 fun m mem => ?_
    obtain ⟨f, form, admits, -⟩ := form_keyword (keyword m mem)
    simp only [form, Option.map_some, Option.getD_some, admits]

theorem isSchema_of_mem_parts {follow : String → Bool} {v w : Value} (h : IsSchema v)
    (mem : w ∈ parts follow v) : IsSchema w := by
  cases h with
  | bool b => cases mem
  | object keyword below =>
    obtain ⟨m, isMember, mem⟩ := List.mem_flatMap.1 mem
    obtain ⟨f, form, -, held⟩ := form_keyword (keyword m isMember)
    simp only [form, Option.map_some, Option.getD_some, List.mem_ite_nil_right] at mem
    rcases held w mem.2 with isInner | ⟨b, rfl⟩
    · exact below w (List.mem_flatMap.2 ⟨m, isMember, isInner⟩)
    · exact .bool b

theorem get?_of_isSchema {v : Value} (h : IsSchema v) {name : String} (absent : name ∉ keys) :
    v.get? name = none := by
  cases h with
  | bool b => rfl
  | object keyword _ => exact lookup_eq_none (fun m mem => key_of_keyword (keyword m mem)) absent

theorem identifier?_of_isSchema {v : Value} (h : IsSchema v) : identifier? v = none := by
  rw [identifier?, get?_of_isSchema h (by decide)]
  rfl

theorem dialectName?_of_isSchema {v : Value} (h : IsSchema v) : dialectName? v = none := by
  rw [dialectName?, get?_of_isSchema h (by decide)]
  rfl

theorem namedIn_of_isSchema {v : Value} (h : IsSchema v) : namedIn v = [] := by
  have ref := get?_of_isSchema h (by decide : "$ref" ∉ keys)
  have dialect := get?_of_isSchema h (by decide : "$schema" ∉ keys)
  simp [namedIn, ref, dialect]

theorem enter_of_isSchema (p : Place) {v : Value} (h : IsSchema v) :
    p.enter v = { p with schema := v } := by
  rw [Place.enter, identifier?_of_isSchema h]

theorem within_of_isSchema (follow : String → Bool) (depth : Nat) {p : Place}
    (h : IsSchema p.schema) : ∀ q ∈ within follow depth p, q.name = p.name ∧ IsSchema q.schema := by
  induction depth generalizing p with
  | zero => exact List.forall_mem_nil _
  | succ depth ih =>
    rw [within, List.forall_mem_cons, List.forall_mem_flatMap]
    refine ⟨⟨rfl, h⟩, fun v mem => ?_⟩
    have isSchema := isSchema_of_mem_parts h mem
    rw [enter_of_isSchema p isSchema]
    exact ih isSchema

theorem ofDocument_of_isSchema {document : Value} (h : IsSchema document) :
    Place.ofDocument document = ⟨some unnamed, document, .draft2020⟩ :=
  enter_of_isSchema _ h

theorem reached?_of_calls_nothing {α κ : Type} [BEq κ] {calls : α → List κ}
    {follow : κ → Option (List α)} {fuel : Nat} (enough : 0 < fuel) {starts : List α}
    (calls_nothing : ∀ a ∈ starts, calls a = []) (followed : List κ) :
    reached? calls follow fuel starts followed = some starts := by
  obtain ⟨fuel, rfl⟩ := Nat.exists_eq_add_of_lt enough
  have nothing : starts.flatMap calls = [] := List.flatMap_eq_nil_iff.2 calls_nothing
  simp [reached?, nothing]

theorem staysInside_of_isSchema {document : Value} (h : IsSchema document) :
    ((named? document).any fun places => places.all (staysInside document)) = true := by
  -- Nothing is named, so the first round of the search is the last.
  let root := Place.ofDocument document
  have place := ofDocument_of_isSchema h
  have inside : ∀ q ∈ listed root, q.name = root.name ∧ IsSchema q.schema :=
    within_of_isSchema _ _ (by simpa [root, place] using h)
  have named : named? document = some (listed root) := by
    refine reached?_of_calls_nothing (Nat.succ_pos _) (fun p mem => ?_) []
    simp [namedIn_of_isSchema (inside p mem).2]
  rw [named, Option.any_some, List.all_eq_true]
  intro p mem
  have name : p.name = some unnamed := by rw [(inside p mem).1, show root = _ from place]
  simp [staysInside, name, namedIn_of_isSchema (inside p mem).2]

namespace Usage

/-- A use in the last draft with all its vocabularies. -/
structure Recent (u : Usage) : Prop where
  draft : u.draft = .draft2020
  vocabularies : u.vocabularies = Draft.draft2020.vocabularies

variable (isPattern : String → Bool)

/-- Whether a keyword is no pattern or a valid one. -/
def passes : String × Value → Bool
  | ("pattern", .string s) => isPattern s
  | _ => true

theorem forall_passes_iff {ms : List (String × Value)} :
    (∀ m ∈ ms, passes isPattern m) ↔ ∀ s, ("pattern", .string s) ∈ ms → isPattern s := by
  constructor
  · intro h s mem
    exact h _ mem
  · intro h m mem
    rw [passes.eq_def]
    split
    · exact h _ mem
    · rfl

variable {isPattern} {u : Usage}

theorem parts?_keyword (recent : u.Recent) {m : String × Value} (h : Keyword m) :
    u.parts? isPattern m.1 m.2 = if passes isPattern m then some (inner m) else none := by
  -- With the draft and its vocabularies known, whether a keyword is used at all computes.
  obtain ⟨place, draft, vocabularies⟩ := u
  obtain ⟨rfl, rfl⟩ := recent
  cases h with
  | type kind => cases kind <;> rfl
  | remark key s =>
    simp only [List.mem_cons, List.not_mem_nil, or_false] at key
    rcases key with rfl | rfl | rfl <;> rfl
  | count key n =>
    simp only [List.mem_cons, List.not_mem_nil, or_false] at key
    rcases key with rfl | rfl <;> rfl
  | bound key n =>
    simp only [List.mem_cons, List.not_mem_nil, or_false] at key
    rcases key with rfl | rfl <;> rfl
  | step | pattern | choices | properties => rfl
  | required nodup =>
    -- The names are not a literal list, so here the check does not compute.
    have strings (names : List String) : areStrings (.array (names.map .string)) = true := by
      simp [areStrings, Value.asString?]
    change guarded (areStrings _) = some []
    rw [strings]
    rfl
  | additional extra => cases extra <;> rfl
  | items ms => rfl

theorem recent_enter (recent : u.Recent) {v : Value} (h : IsSchema v) : (u.enter v).Recent where
  draft := by
    simp only [enter, Draft.detect?, dialectName?_of_isSchema h, Option.getD_some, recent.draft]
  vocabularies := recent.vocabularies

theorem schema_enter (u : Usage) {v : Value} (h : IsSchema v) : (u.enter v).place.schema = v := by
  simp only [enter, enter_of_isSchema u.place h]

theorem keywords_of_recent (recent : u.Recent) {ms : List (String × Value)}
    (schema : u.place.schema = .object ms) : u.keywords = ms := by
  simp [keywords, schema, Value.asObject?, recent.draft, Draft.isDivided]

theorem inner?_object (recent : u.Recent) {ms : List (String × Value)}
    (schema : u.place.schema = .object ms) (keyword : ∀ m ∈ ms, Keyword m) :
    u.inner? isPattern =
      if ms.all (passes isPattern) then some ((ms.flatMap inner).map u.enter) else none := by
  have used := mapM_guarded fun m mem => @parts?_keyword isPattern u recent m (keyword m mem)
  rw [inner?, schema]
  dsimp only
  rw [keywords_of_recent recent schema, used]
  split <;> rfl

theorem within?_succ (depth : Nat) (u : Usage) : within? isPattern (depth + 1) u =
    (u.inner? isPattern).bind fun ws =>
      (ws.mapM (within? isPattern depth)).map fun uses => u :: uses.flatten := by
  rw [within?]
  cases u.inner? isPattern with
  | none => rfl
  | some ws => cases h : ws.mapM (within? isPattern depth) <;> simp [h]

theorem isSome_within?_succ (recent : u.Recent) {ms : List (String × Value)}
    (schema : u.place.schema = .object ms) (keyword : ∀ m ∈ ms, Keyword m) (depth : Nat) :
    (within? isPattern (depth + 1) u).isSome ↔
      (∀ m ∈ ms, passes isPattern m) ∧
        ∀ v ∈ ms.flatMap inner, (within? isPattern depth (u.enter v)).isSome := by
  rw [within?_succ, inner?_object recent schema keyword]
  split
  · next all =>
    rw [Option.bind_some, Option.isSome_map, isSome_mapM_iff, List.forall_mem_map,
      and_iff_right (List.all_eq_true.1 all)]
  · next notAll => exact iff_of_false nofun fun h => notAll (List.all_eq_true.2 h.1)

theorem references_eq_nil (recent : u.Recent) (h : IsSchema u.place.schema) :
    u.references = [] := by
  cases schema : u.place.schema with
  | object ms =>
    rw [schema] at h
    cases h with
    | object keyword below =>
      refine List.filterMap_eq_nil_iff.2 fun m mem => ?_
      rw [keywords_of_recent recent schema] at mem
      have key := key_of_keyword (keyword m mem)
      have noRef : m.1 ≠ "$ref" := by
        intro same
        exact absurd (same ▸ key) (by decide)
      have noDynamicRef : m.1 ≠ "$dynamicRef" := by
        intro same
        exact absurd (same ▸ key) (by decide)
      simp [noRef, noDynamicRef]
  | _ => simp [references, keywords, schema, Value.asObject?]

theorem isSchema_of_inner? (recent : u.Recent) (h : IsSchema u.place.schema) {ws : List Usage}
    (used : u.inner? isPattern = some ws) : ∀ w ∈ ws, w.Recent ∧ IsSchema w.place.schema := by
  cases schema : u.place.schema with
  | object ms =>
    rw [schema] at h
    cases h with
    | object keyword below =>
      rw [inner?_object recent schema keyword, Option.ite_none_right_eq_some] at used
      obtain rfl := Option.some.inj used.2
      rw [List.forall_mem_map]
      intro v mem
      have isSchema := below v mem
      rw [schema_enter u isSchema]
      exact ⟨recent_enter recent isSchema, isSchema⟩
  | bool b =>
    simp only [inner?, schema] at used
    obtain rfl := Option.some.inj used
    exact List.forall_mem_nil _
  | _ => simp [inner?, schema] at used

theorem isSchema_of_within? (depth : Nat) (recent : u.Recent) (h : IsSchema u.place.schema)
    {us : List Usage} (used : within? isPattern depth u = some us) :
    ∀ w ∈ us, w.Recent ∧ IsSchema w.place.schema := by
  induction depth generalizing u us with
  | zero => cases used
  | succ depth ih =>
    rw [within?_succ] at used
    obtain ⟨ws, direct, used⟩ := Option.bind_eq_some_iff.1 used
    obtain ⟨uses, below, rfl⟩ := Option.map_eq_some_iff.1 used
    rw [List.forall_mem_cons]
    refine ⟨⟨recent, h⟩, fun v mem => ?_⟩
    obtain ⟨vs, mem_uses, mem⟩ := List.mem_flatten.1 mem
    obtain ⟨w, mem_ws, within⟩ := exists_of_mem_mapM below vs mem_uses
    obtain ⟨recent, isSchema⟩ := isSchema_of_inner? recent h direct w mem_ws
    exact ih recent isSchema within v mem

variable {extra : Bool}

/-- A compiled schema can be used if its pattern can and the schemas in it can. -/
theorem isSome_within?_of_shows {pattern : Option String} {below : List Property}
    (h : Shows extra pattern below u.place.schema) (recent : u.Recent) {depth : Nat}
    (enough : u.place.schema.depth < depth) {usable : Property → Prop}
    (ih : ∀ p ∈ below, ∀ (w : Usage) (depth : Nat) (location : String), w.Recent →
      w.place.schema = (property extra location p).1 → w.place.schema.depth < depth →
      ((within? isPattern depth w).isSome ↔ usable p)) :
    (within? isPattern depth u).isSome ↔
      (∀ s, pattern = some s → isPattern s) ∧ ∀ p ∈ below, usable p := by
  obtain ⟨depth, rfl⟩ := Nat.exists_eq_succ_of_ne_zero (Nat.ne_zero_of_lt enough)
  generalize schema : u.place.schema = v at h enough
  cases h with
  | @object ms keyword pattern_iff location held =>
    have each (p : Property) (mem : p ∈ below) :
        (within? isPattern depth (u.enter (property extra (location p) p).1)).isSome ↔
          usable p := by
      have isSchema : IsSchema (property extra (location p) p).1 := isSchema_property p _
      have isInner : (property extra (location p) p).1 ∈ ms.flatMap inner :=
        held ▸ List.mem_map_of_mem mem
      have entered := schema_enter u isSchema
      -- One level of depth is spent here, and a schema inside is less deep by one at least.
      refine ih p mem _ depth (location p) (recent_enter recent isSchema) entered ?_
      rw [entered]
      exact Nat.lt_of_lt_of_le (depth_lt_of_mem_inner isInner) (Nat.le_of_lt_succ enough)
    rw [isSome_within?_succ recent schema keyword, forall_passes_iff, held, List.forall_mem_map]
    simp only [pattern_iff]
    exact and_congr_right fun _ => forall₂_congr each

theorem isSome_within?_property (p : Property) :
    ∀ (u : Usage) (depth : Nat) (location : String), u.Recent →
      u.place.schema = (property extra location p).1 → u.place.schema.depth < depth →
      ((within? isPattern depth u).isSome ↔
        ∀ site ∈ sites p, ∀ s, pattern? site.property = some s → isPattern s) := by
  induction p using shown_induct with
  | node p ih =>
    intro u depth location recent schema enough
    rw [forall_sites_iff p fun q => ∀ s, pattern? q = some s → isPattern s]
    have h : Shows extra (pattern? p) (shown p) u.place.schema :=
      schema ▸ shows_property p location
    exact isSome_within?_of_shows h recent enough ih

theorem recent_ofDocument {document : Value} (h : IsSchema document) :
    (Usage.ofDocument document).Recent where
  draft := rfl
  vocabularies := by
    simp only [Usage.ofDocument, SchemaCheck.vocabularies, dialectName?_of_isSchema h]

theorem used?_of_references_nil {document : Value} {us : List Usage}
    (inside : u.all? isPattern = some us) (nothing : ∀ w ∈ us, w.references = []) :
    used? isPattern document u = some us := by
  have enough (a b : Nat) : 0 < a + 1 + b := by omega
  have calls_nothing : ∀ w ∈ us, w.references.map (target? w.place.name) = [] := fun w mem => by
    rw [nothing w mem, List.map_nil]
  rw [used?, inside]
  exact reached?_of_calls_nothing (enough _ _) calls_nothing []

/-- Compiled schemas refer to nothing, so validation reaches what is inside them and no more. -/
theorem isSome_used?_iff (document : Value) (recent : u.Recent) (h : IsSchema u.place.schema) :
    (used? isPattern document u).isSome ↔ (u.all? isPattern).isSome := by
  cases inside : u.all? isPattern with
  | none =>
    rw [used?, inside]
    rfl
  | some us =>
    have nothing : ∀ w ∈ us, w.references = [] := by
      intro w mem
      obtain ⟨recent, isSchema⟩ := isSchema_of_within? _ recent h inside w mem
      exact references_eq_nil recent isSchema
    rw [used?_of_references_nil inside nothing]

end Usage

theorem isValid_compile_iff (isPattern : String → Bool) (t : Tree) (m : Metadata) :
    isValid isPattern (SchemaPass.compile t m).document = true ↔
      ∀ s ∈ patterns t, isPattern s = true := by
  have isShown := shows_compile t m
  have isSchema := isSchema_compile t m
  generalize (SchemaPass.compile t m).document = document at isShown isSchema
  have place := ofDocument_of_isSchema isSchema
  have schema : (Usage.ofDocument document).place.schema = document := by
    rw [Usage.ofDocument, place]
  have recent := Usage.recent_ofDocument isSchema
  have wellFormed : (all (.ofDocument document)).all (fun p => isWellFormed p.schema) = true := by
    refine List.all_eq_true.2 fun q mem => isWellFormed_of_isSchema ?_
    exact (within_of_isSchema _ _ (by rwa [place]) q mem).2
  have inside : ((Usage.ofDocument document).all? isPattern).isSome ↔ _ :=
    Usage.isSome_within?_of_shows (by rwa [schema]) recent (Nat.lt_succ_self _)
      fun p _ => Usage.isSome_within?_property p
  have used := @Usage.isSome_used?_iff isPattern _ document recent (by rwa [schema])
  rw [isValid, wellFormed, staysInside_of_isSchema isSchema, Bool.true_and, Bool.true_and, used,
    inside, ← forall_memberSites_iff t.roots fun p => ∀ s, pattern? p = some s → isPattern s]
  constructor
  · rintro ⟨-, each⟩ s mem
    obtain ⟨site, isSite, given⟩ := List.mem_filterMap.1 mem
    exact each site isSite s given
  · intro each
    exact ⟨nofun, fun site isSite s given => each s (List.mem_filterMap.2 ⟨site, isSite, given⟩)⟩

end SchemaCheck

/-- Whichever texts the engine takes for patterns, a project gives a publishable schema exactly if
every pattern in it is one, whatever else its tree holds; the artifact is then the same as without
the check. -/
theorem Project.compileChecked_schema (p : Project) (isPattern : String → Bool) (n : Namespaces) :
    (p.compileChecked isPattern .schema n = .ok (p.compileAs .schema n) ↔
        ∀ s ∈ patterns p.tree, isPattern s = true) ∧
      (p.compileChecked isPattern .schema n = .error .invalidSchema ↔
        ∃ s ∈ patterns p.tree, isPattern s = false) := by
  have checked : p.compileChecked isPattern .schema n =
      if SchemaCheck.isValid isPattern (SchemaPass.compile p.tree p.metadata).document then
        .ok (p.compileAs .schema n)
      else .error .invalidSchema := by
    rw [compileChecked, Mode.check]
    change Except.map _
      (if SchemaCheck.isValid isPattern (SchemaPass.compile p.tree p.metadata).document
        then _ else _) = _
    split <;> rfl
  have valid := SchemaCheck.isValid_compile_iff isPattern p.tree p.metadata
  rw [checked, ← valid]
  split <;> simp_all

/-- A broken pattern below a repeated name is not in the schema. -/
example :
    let text (n : Nat) (name pattern : String) : Property :=
      ⟨{ id := ⟨.numbered n⟩, name, constraints := some { pattern := some pattern } }, [], none⟩
    patterns ⟨[text 1 "zip" "[0-9]+", text 2 "zip" "("], 0⟩ = ["[0-9]+"] := by
  decide

end CredentialSchema

import CredentialSchema.Proofs.Compile.Levels

/-!
What a schema tells of its tree. Where nothing is warned of, all members of an object have their
places under `properties`, in order, so that kinds and names can be read off, and a member is
required exactly if its name is listed. Then trees with one schema have one skeleton.
-/
namespace CredentialSchema

open Json (Value)

/-- The kinds of a property and of everything below it, with the names of members in order and
whether they are required. -/
inductive Skeleton
  | node (kind : Kind) (members : List (String × Bool × Skeleton)) (element : Option Skeleton)

theorem Kind.text_injective : Function.Injective Kind.text := by
  intro kind kind' same
  have read := congrArg Kind.ofText? same
  rw [Kind.ofText?_text, Kind.ofText?_text] at read
  exact Option.some.inj read

namespace Property

mutual
def skeleton : Property → Skeleton
  | ⟨d, ms, e⟩ => .node d.kind (skeletons ms) (skeletonOfOption e)

/-- The skeletons of listed members, each with its name and whether it is required. -/
def skeletons : List Property → List (String × Bool × Skeleton)
  | [] => []
  | p :: ps => (p.name, p.decl.required, skeleton p) :: skeletons ps

/-- The skeleton of an element definition, whose name does not count. -/
def skeletonOfOption : Option Property → Option Skeleton
  | none => none
  | some p => some (skeleton p)
end

theorem skeletons_eq_map (ps : List Property) :
    skeletons ps = ps.map fun p => (p.name, p.decl.required, skeleton p) := by
  induction ps with
  | nil => rfl
  | cons p ps ih => rw [skeletons, ih, List.map_cons]

variable {d : Declaration} {ms : List Property} {e : Option Property}

theorem skeleton_object (legal : Legal [⟨d, ms, e⟩]) (kind : d.kind = .object) :
    skeleton ⟨d, ms, e⟩ = .node .object (skeletons ms) none := by
  have bare : e = none := by
    by_contra some
    exact absurd (kind.symm.trans (((legal_cons d ms e []).1 legal).1.2 some)) nofun
  rw [skeleton, kind, bare, skeletonOfOption]

theorem skeleton_array (legal : Legal [⟨d, ms, e⟩]) (kind : d.kind = .array) :
    skeleton ⟨d, ms, e⟩ = .node .array [] (skeletonOfOption e) := by
  have bare : ms = [] := by
    by_contra some
    exact absurd (kind.symm.trans (((legal_cons d ms e []).1 legal).1.1 some)) nofun
  rw [skeleton, kind, bare, skeletons]

theorem skeleton_scalar (legal : Legal [⟨d, ms, e⟩]) (kind : d.kind.isContainer = false) :
    skeleton ⟨d, ms, e⟩ = .node d.kind [] none := by
  obtain ⟨members, element⟩ := ((legal_cons d ms e []).1 legal).1
  have noMembers : ms = [] := by
    by_contra some
    simp [members some, Kind.isContainer] at kind
  have noElement : e = none := by
    by_contra some
    simp [element some, Kind.isContainer] at kind
  rw [skeleton, noMembers, noElement, skeletons, skeletonOfOption]

end Property

namespace SchemaPass

open Property (Legal skeletons skeletonOfOption)

variable {extra : Bool} {path : String}

/-! ### Nothing is left out where nothing is warned of -/

/-- A property of whose schema nothing is warned. -/
structure Clean (extra : Bool) (p : Property) : Prop where
  legal : Legal [p]
  quiet : ∃ path, (property extra path p).2 = []

/-- An object level of whose schema nothing is warned, which so shows all of it. -/
structure CleanLevel (extra : Bool) (ps : List Property) : Prop where
  names : (ps.map Property.name).Nodup
  each : ∀ p ∈ ps, Clean extra p

theorem quiet_of_children {taken : List String} {ps : List Property}
    (quiet : (children extra path taken ps).2 = []) :
    (ps.map Property.name).Nodup ∧
      ∀ p ∈ ps, p.name ∉ taken ∧ ∃ path, (property extra path p).2 = [] := by
  induction ps generalizing taken with
  | nil => exact ⟨List.nodup_nil, nofun⟩
  | cons p ps ih =>
    rw [children] at quiet
    cases repeated : taken.contains p.name with
    | true =>
      simp only [repeated, if_true, List.append_eq_nil_iff, reduceCtorEq, and_false] at quiet
    | false =>
      simp only [repeated, Bool.false_eq_true, if_false, List.append_eq_nil_iff] at quiet
      obtain ⟨⟨-, here⟩, others⟩ := quiet
      obtain ⟨names, each⟩ := ih others
      have once : p.name ∉ ps.map Property.name := by
        intro mem
        obtain ⟨q, mem, same⟩ := List.mem_map.1 mem
        exact (each q mem).1 (same ▸ List.mem_cons_self)
      rw [List.map_cons, List.nodup_cons, List.forall_mem_cons]
      refine ⟨⟨once, names⟩, ⟨by simpa using repeated, _, here⟩, fun q mem => ?_⟩
      exact ⟨fun before => (each q mem).1 (List.mem_cons_of_mem _ before), (each q mem).2⟩

theorem cleanLevel_of_children {ps : List Property} (legal : Legal ps)
    (quiet : (children extra path [] ps).2 = []) : CleanLevel extra ps := by
  obtain ⟨names, each⟩ := quiet_of_children quiet
  exact ⟨names, fun p mem => ⟨Property.legal_of_mem legal mem, (each p mem).2⟩⟩

variable {d : Declaration} {ms : List Property} {e : Option Property}

theorem Clean.members (h : Clean extra ⟨d, ms, e⟩) (kind : d.kind = .object) :
    CleanLevel extra ms := by
  obtain ⟨path, quiet⟩ := h.quiet
  have legal := ((Property.legal_cons d ms e []).1 h.legal).2.1
  simp only [property, kind] at quiet
  exact cleanLevel_of_children legal quiet

theorem Clean.element (h : Clean extra ⟨d, ms, e⟩) (kind : d.kind = .array) :
    ∃ p, e = some p ∧ Clean extra p := by
  obtain ⟨path, quiet⟩ := h.quiet
  have legal := ((Property.legal_cons d ms e []).1 h.legal).2.2.1
  simp only [property, kind] at quiet
  cases e with
  | none => simp only [SchemaPass.element, reduceCtorEq] at quiet
  | some p => exact ⟨p, rfl, legal, _, quiet⟩

theorem required_iff {ps : List Property} (names : (ps.map Property.name).Nodup) {p : Property}
    (mem : p ∈ ps) : p.decl.required = true ↔ p.name ∈ requiredNames ps := by
  rw [mem_requiredNames_iff]
  constructor
  · intro required
    exact ⟨p, mem, required, rfl⟩
  · rintro ⟨q, mem', required, same⟩
    exact List.inj_on_of_nodup_map names mem' mem same ▸ required

/-! ### Reading a schema -/

theorem requiredNames_of_lookup {ps qs : List Property}
    {properties properties' : List (String × Value)}
    (same : (levelMembers extra ps properties).lookup "required" =
      (levelMembers extra qs properties').lookup "required") :
    requiredNames ps = requiredNames qs := by
  rw [lookup_required_levelMembers, lookup_required_levelMembers] at same
  have text : Function.Injective Value.string := fun _ _ => Value.string.inj
  by_cases none : (requiredNames ps).isEmpty <;> by_cases none' : (requiredNames qs).isEmpty
  · rw [List.isEmpty_iff.1 none, List.isEmpty_iff.1 none']
  · simp [none, none'] at same
  · simp [none, none'] at same
  · simp only [none, none', Bool.false_eq_true, if_false, Option.some.injEq,
      Value.array.injEq] at same
    exact List.map_injective_iff.2 text same

theorem level_of_eq {ps qs : List Property} {title title' description description' : Option String}
    (same : heading "object" title description ++ levelMembers extra ps (schemas extra ps) =
      heading "object" title' description' ++ levelMembers extra qs (schemas extra qs)) :
    requiredNames ps = requiredNames qs ∧ schemas extra ps = schemas extra qs := by
  have found (name : String) (other : name ∉ ["type", "title", "description"]) :
      (levelMembers extra ps (schemas extra ps)).lookup name =
        (levelMembers extra qs (schemas extra qs)).lookup name := by
    rw [← lookup_heading_append "object" title description _ other, same,
      lookup_heading_append _ _ _ _ other]
  have properties := found "properties" (by decide)
  simp only [levelMembers, List.cons_append, List.lookup_cons_self, Option.some.injEq,
    Value.object.injEq] at properties
  exact ⟨requiredNames_of_lookup (found "required" (by decide)), properties⟩

theorem kind_of_schema_eq {p q : Property} (same : schema extra p = schema extra q) :
    p.kind = q.kind := by
  have types := congrArg (fun v => v.get? "type") same
  simp only [get?_type_schema] at types
  exact Kind.text_injective (Value.string.inj (Option.some.inj types))

/-! ### One schema, one skeleton -/

theorem skeletons_of_level {ps qs : List Property} (names : (ps.map Property.name).Nodup)
    (names' : (qs.map Property.name).Nodup) (required : requiredNames ps = requiredNames qs)
    (listed : schemas extra ps = schemas extra qs)
    (each : ∀ p ∈ ps, ∀ q ∈ qs, schema extra p = schema extra q → p.skeleton = q.skeleton) :
    skeletons ps = skeletons qs := by
  rw [schemas, schemas, firsts_of_nodup names, firsts_of_nodup names',
    map_eq_map_iff_forall₂] at listed
  rw [Property.skeletons_eq_map, Property.skeletons_eq_map, map_eq_map_iff_forall₂]
  refine (forall₂_mem listed).imp ?_
  rintro p q ⟨mem, mem', same⟩
  obtain ⟨name, below⟩ := Prod.mk.inj same
  -- No other member has the name, so that the listed names decide the flags.
  have flag : p.decl.required = q.decl.required := by
    rw [Bool.eq_iff_iff, required_iff names mem, required_iff names' mem', required, name]
  rw [name, flag, each p mem q mem' below]

theorem skeleton_of_schema_eq (p : Property) : ∀ q, Clean extra p → Clean extra q →
    schema extra p = schema extra q → p.skeleton = q.skeleton := by
  -- On the first property: the second has its kind, so members meet members and elements elements.
  induction p using Property.induct with
  | node d ms e members element =>
    rintro ⟨d', ms', e'⟩ clean clean' same
    have kinds : d.kind = d'.kind := kind_of_schema_eq same
    cases kind : d.kind with
    | object =>
      have kind' : d'.kind = .object := kinds.symm.trans kind
      have level := clean.members kind
      have level' := clean'.members kind'
      rw [schema_object extra ms e kind, schema_object extra ms' e' kind',
        Value.object.injEq] at same
      obtain ⟨required, listed⟩ := level_of_eq same
      rw [Property.skeleton_object clean.legal kind, Property.skeleton_object clean'.legal kind',
        skeletons_of_level level.names level'.names required listed]
      intro p mem q mem'
      exact members p mem q (level.each p mem) (level'.each q mem')
    | array =>
      have kind' : d'.kind = .array := kinds.symm.trans kind
      obtain ⟨p, rfl, inner⟩ := clean.element kind
      obtain ⟨q, rfl, inner'⟩ := clean'.element kind'
      rw [schema_array extra ms _ kind, schema_array extra ms' _ kind', Value.object.injEq] at same
      have items := congrArg (List.lookup "items") same
      rw [lookup_heading_append _ _ _ _ (by decide), lookup_heading_append _ _ _ _ (by decide)]
        at items
      have below : p.skeleton = q.skeleton :=
        element p rfl q inner inner' (Option.some.inj items)
      rw [Property.skeleton_array clean.legal kind, Property.skeleton_array clean'.legal kind',
        skeletonOfOption, skeletonOfOption, below]
    | string | integer | number | boolean =>
      have scalar : d.kind.isContainer = false := by simp [kind, Kind.isContainer]
      rw [Property.skeleton_scalar clean.legal scalar,
        Property.skeleton_scalar clean'.legal (kinds ▸ scalar), kinds]

/-- A schema of which nothing is warned tells the skeleton of its tree: the members of each object
in order, with their names and kinds and whether they are required. -/
theorem skeletons_of_document_eq {t t' : Tree} {m : Metadata} (legal : Legal t.roots)
    (legal' : Legal t'.roots) (quiet : (compile t m).warnings = [])
    (quiet' : (compile t' m).warnings = [])
    (same : (compile t m).document = (compile t' m).document) :
    skeletons t.roots = skeletons t'.roots := by
  have level : CleanLevel m.additionalProperties t.roots := cleanLevel_of_children legal quiet
  have level' : CleanLevel m.additionalProperties t'.roots := cleanLevel_of_children legal' quiet'
  rw [document_compile, document_compile, Value.object.injEq] at same
  obtain ⟨required, listed⟩ := level_of_eq same
  refine skeletons_of_level level.names level'.names required listed fun p mem q mem' => ?_
  exact skeleton_of_schema_eq p q (level.each p mem) (level'.each q mem')

/-- Two homes with other identifiers, whose lists of tags name their elements differently. Neither
shows in the schema. -/
theorem skeletons_of_document_eq_tags :
    let home (n : Nat) (element : String) : Tree :=
      ⟨[⟨{ id := ⟨.numbered 0⟩, name := "home", kind := .object }, [
        ⟨{ id := ⟨.numbered n⟩, name := "tags", kind := .array, required := true }, [],
          some (.fresh ⟨.numbered (n + 1)⟩ .string element)⟩,
        .fresh ⟨.numbered (n + 2)⟩ .integer "rooms"], none⟩], n⟩
    home 1 "tag" ≠ home 4 "label" ∧
      (compile (home 1 "tag") {}).document = (compile (home 4 "label") {}).document ∧
      skeletons (home 1 "tag").roots = skeletons (home 4 "label").roots := by
  intro home
  have legal_of_all {ps : List Property}
      (permitted : (Property.subtreeOfList ps).all Property.hasLegalChildren = true) : Legal ps :=
    fun p mem => (Property.hasLegalChildren_iff p).1 (List.all_eq_true.1 permitted p mem)
  have same : (compile (home 1 "tag") {}).document = (compile (home 4 "label") {}).document := by
    decide +kernel
  refine ⟨by decide +kernel, same, ?_⟩
  exact skeletons_of_document_eq (legal_of_all (by decide +kernel))
    (legal_of_all (by decide +kernel)) (by decide +kernel) (by decide +kernel) same

end SchemaPass
end CredentialSchema

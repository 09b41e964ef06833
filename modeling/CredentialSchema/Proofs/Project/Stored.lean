import CredentialSchema.Proofs.Property.Loaded
import CredentialSchema.Proofs.Tree.Run
import CredentialSchema.Storage.Project

/-!
Stored projects load again. The text that is written of a project is read up to the nesting
limit, and what was loaded once is well formed, so the project is loaded as it was, its tree at
revision zero, exactly if its stored form is not nested beyond the limit.
-/
namespace CredentialSchema

open Yaml (limited limitedItems limitedMembers)
open Json.Value

namespace Metadata

def storedMembers (m : Metadata) : List (String × Json.Value) :=
  [("title", .string m.title)] ++
    optionalMember "description" m.description .string ++
    [("mode", .string m.mode.text)] ++
    optionalMember "category" m.category .string ++
    optionalMember "credentialName" m.credentialName .string ++
    [("additionalProperties", .bool m.additionalProperties)]

theorem names_storedMembers (m : Metadata) :
    (m.storedMembers.map (·.1)).Sublist fieldNames := by
  simp only [storedMembers, List.map_append]
  exact (List.Sublist.refl ["title"]).append (names_optionalMember ..)
    |>.append (List.Sublist.refl ["mode"]) |>.append (names_optionalMember ..)
    |>.append (names_optionalMember ..) |>.append (List.Sublist.refl ["additionalProperties"])

theorem lookup_storedMembers (m : Metadata) (key : String) :
    m.storedMembers.lookup key =
      (((((if key = "title" then some (.string m.title) else none).or
      (if key = "description" then m.description.map .string else none)).or
      (if key = "mode" then some (.string m.mode.text) else none)).or
      (if key = "category" then m.category.map .string else none)).or
      (if key = "credentialName" then m.credentialName.map .string else none)).or
      (if key = "additionalProperties" then some (.bool m.additionalProperties) else none) := by
  simp only [storedMembers, List.lookup_append, lookup_optionalMember, lookup_member,
    List.lookup_nil]

theorem depth_toJson (m : Metadata) : m.toJson.depth = 1 := by
  change depthMembers m.storedMembers + 1 = 1
  rw [storedMembers]
  simp only [depthMembers_append]
  rw [depthMembers_scalar _ _ fun _ => rfl, depthMembers_scalar _ _ fun _ => rfl,
    depthMembers_scalar _ _ fun _ => rfl]
  rfl

theorem inRange_toJson (m : Metadata) : m.toJson.InRange := by
  change InRangeMembers m.storedMembers
  simp only [storedMembers, inRangeMembers_append]
  exact ⟨⟨⟨⟨⟨⟨trivial, trivial⟩, inRangeMembers_optional fun _ _ => trivial⟩, ⟨trivial, trivial⟩⟩,
    inRangeMembers_optional fun _ _ => trivial⟩, inRangeMembers_optional fun _ _ => trivial⟩,
    ⟨trivial, trivial⟩⟩

theorem ofDocument?_limited (m : Metadata) (levels : Nat) :
    ofDocument? (limited (levels + 1) (.ofValue m.toJson)) = some m := by
  have text (name : String) (value : Option String)
      (here : m.storedMembers.lookup name = value.map .string) :
      (Fields.written levels m.storedMembers).optional name Document.string? = some value :=
    Fields.optional_written here fun s _ => ⟨rfl, rfl⟩
  have title : (Fields.written levels m.storedMembers).withDefault "title" "" Document.string? =
      some m.title := by
    rw [Fields.withDefault_written (v := .string m.title) (by simp [lookup_storedMembers])]
    rfl
  have mode : (Fields.written levels m.storedMembers).withDefault "mode" .schema
      Mode.ofDocument? = some m.mode := by
    rw [Fields.withDefault_written (v := .string m.mode.text) (by simp [lookup_storedMembers])]
    exact Mode.ofText?_text m.mode
  have additional : (Fields.written levels m.storedMembers).withDefault "additionalProperties" true
      Document.bool? = some m.additionalProperties := by
    rw [Fields.withDefault_written (v := .bool m.additionalProperties)
      (by simp [lookup_storedMembers])]
    rfl
  have stored : m.toJson = .object m.storedMembers := rfl
  rw [stored, Document.ofValue, limited, if_neg levels.succ_ne_zero, ofDocument?]
  simp only [Nat.add_sub_cancel, Document.fields?_written m.names_storedMembers (by decide), title,
    text "description" m.description (by simp [lookup_storedMembers]), mode,
    text "category" m.category (by simp [lookup_storedMembers]),
    text "credentialName" m.credentialName (by simp [lookup_storedMembers]), additional,
    Option.bind_eq_bind, Option.bind_some]
  rfl

end Metadata

namespace Project

/-- What is loaded of a stored project: the revision is not stored. -/
def reloaded (p : Project) : Project := { p with tree := ⟨p.tree.roots, 0⟩ }

def storedMembers (p : Project) : List (String × Json.Value) :=
  [("id", p.id.uuid.toJson), ("metadata", p.metadata.toJson), ("properties", p.tree.toJson)]

variable {p : Project}

theorem inRange_toJson (storable : Property.Everywhere Property.Storable p.tree.roots) :
    p.toJson.InRange :=
  ⟨trivial, p.metadata.inRange_toJson, Property.inRange_listToJson p.tree.roots storable, trivial⟩

theorem depth_toJson (p : Project) : p.toJson.depth = p.tree.toJson.depth + 1 := by
  have metadata := p.metadata.depth_toJson
  change max 0 (max p.metadata.toJson.depth (max p.tree.toJson.depth 0)) + 1 = _
  have tree : p.tree.toJson.depth = depthItems (Property.listToJson p.tree.roots) + 1 := rfl
  omega

theorem load_limited (wellFormed : p.tree.WellFormed)
    (good : Property.Everywhere (fun q => q.Storable ∧ q.Finite) p.tree.roots) (levels : Nat) :
    (load (limited levels (.ofValue p.toJson))).toOption =
      if p.toJson.depth ≤ levels then some p.reloaded else none := by
  have stored : p.toJson = .object p.storedMembers := rfl
  have fields (levels : Nat) := @Document.fields?_written ["id", "metadata", "properties"]
    p.storedMembers (.refl _) (by decide) levels
  cases levels with
  | zero => simp [stored, Document.ofValue, limited, load, Document.fields?, depth, Except.toOption]
  | succ levels =>
    have id : (Fields.written levels p.storedMembers).required "id" Uuid.ofDocument? =
        some p.id.uuid := by
      rw [Fields.required_written (v := p.id.uuid.toJson) rfl, Uuid.ofDocument?_toJson]
    have metadata : (Fields.written levels p.storedMembers).required "metadata"
        Metadata.ofDocument? = if 1 ≤ levels then some p.metadata else none := by
      rw [Fields.required_written (v := p.metadata.toJson) rfl]
      cases levels with
      | zero => rfl
      | succ levels => rw [Metadata.ofDocument?_limited, if_pos (Nat.le_add_left ..)]
    have roots : (Fields.written levels p.storedMembers).withDefault "properties" []
        Property.listOf? = if p.tree.toJson.depth ≤ levels then some p.tree.roots else none := by
      rw [Fields.withDefault_written (v := p.tree.toJson) rfl]
      exact Property.listOf?_limited good levels
    have tree : p.tree.toJson.depth = depthItems (Property.listToJson p.tree.roots) + 1 := rfl
    have fits : p.toJson.depth ≤ levels + 1 ↔ p.tree.toJson.depth ≤ levels := by
      rw [depth_toJson, Nat.add_le_add_iff_right]
    rw [if_congr fits rfl rfl, stored, Document.ofValue, limited, if_neg levels.succ_ne_zero, load]
    simp only [Nat.add_sub_cancel, fields, id, metadata, roots, Option.bind_eq_bind,
      Option.bind_some]
    by_cases fits : p.tree.toJson.depth ≤ levels
    · have some_level : 1 ≤ levels := by omega
      simp only [fits, some_level, if_true, Option.bind_some, Option.pure_def]
      rw [p.tree.wellFormed_iff.1 wellFormed]
      rfl
    · by_cases some_level : 1 ≤ levels <;> simp [fits, some_level, Except.toOption]

theorem load_write (wellFormed : p.tree.WellFormed)
    (good : Property.Everywhere (fun q => q.Storable ∧ q.Finite) p.tree.roots) :
    ((FileFormat.json.read? (FileFormat.write p .json)).bind fun d => (load d).toOption) =
      if p.toJson.depth ≤ Json.nestingLimit then some p.reloaded else none := by
  have inRange := inRange_toJson fun q mem => (good q mem).1
  rw [FileFormat.read?, FileFormat.write, Json.read?_pretty inRange, Option.bind_some,
    load_limited wellFormed good]

theorem load_cases {d : Document} (h : load d = .ok p) :
    p.tree.WellFormed ∧ ∃ f, d.fields? ["id", "metadata", "properties"] = some f ∧
      f.withDefault "properties" [] Property.listOf? = some p.tree.roots := by
  rw [load] at h
  split at h
  · simp at h
  · next id metadata roots parts =>
    obtain ⟨f, fields, parts⟩ := Option.bind_eq_some_iff.1 parts
    obtain ⟨id', -, parts⟩ := Option.bind_eq_some_iff.1 parts
    obtain ⟨metadata', -, parts⟩ := Option.bind_eq_some_iff.1 parts
    obtain ⟨roots', read, parts⟩ := Option.bind_eq_some_iff.1 parts
    obtain rfl : roots' = roots := by simp_all
    cases made : Tree.ofProperties roots' with
    | error v => simp [made, Except.mapError, Except.map] at h
    | ok t =>
      simp only [made, Except.mapError, Except.map, Except.ok.injEq] at h
      obtain ⟨rfl, distinct, legal⟩ := (Tree.ofProperties_eq_ok_iff ..).1 made
      subst h
      exact ⟨⟨distinct, legal⟩, f, fields, read⟩

theorem constrained_of_load {P : Document → Prop} {C : Constraints → Prop}
    (part : Constraints.Loaded P C) {d : Document} (each : Document.Each P d) (h : load d = .ok p) :
    Property.Everywhere (Property.Constrained C) p.tree.roots := by
  obtain ⟨-, f, fields, read⟩ := load_cases h
  rcases Fields.loads_withDefault (Document.each_fields? fields each) read with none | loads
  · simp [none]
  · obtain ⟨d, items, read⟩ := loads
    exact Property.everywhere_listOf? part d items read

end Project
end CredentialSchema

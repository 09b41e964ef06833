import CredentialSchema.Proofs.Compile.Sites

/-!
Schemas apart from the warnings. Where a property stands shows in the paths of warnings and nowhere
else, so `schema` asks for no path, and an object level is the list of its first children's schemas.
-/
namespace CredentialSchema.SchemaPass

open Json (Value)

theorem fst_property_path (extra : Bool) (p : Property) (path path' : String) :
    (property extra path p).1 = (property extra path' p).1 := by
  induction p using Property.induct generalizing path path' with
  | node d ms e members element =>
    cases kind : d.kind with
    | object =>
      have same : (children extra path [] ms).1 = (children extra path' [] ms).1 := by
        rw [fst_children_nil, fst_children_nil]
        apply List.map_congr_left
        intro m mem
        rw [members m (firsts_subset ms mem)]
      simp only [property, kind, same]
    | array =>
      cases e with
      | none => simp only [property, kind, SchemaPass.element]
      | some q =>
        have same := element q rfl (Warning.elementPath path) (Warning.elementPath path')
        simp only [property, kind, SchemaPass.element, same]
    | string | integer | number | boolean => simp only [property, kind]

def schema (extra : Bool) (p : Property) : Value := (property extra "" p).1

/-- The schemas of listed children, of which the first of each name counts. -/
def schemas (extra : Bool) (ps : List Property) : List (String × Value) :=
  (firsts ps).map fun p => (p.name, schema extra p)

variable (extra : Bool) (path : String)

theorem fst_property (p : Property) : (property extra path p).1 = schema extra p :=
  fst_property_path extra p path ""

theorem fst_children_eq (ps : List Property) :
    (children extra path [] ps).1 = schemas extra ps := by
  simp only [fst_children_nil, fst_property, schemas]

variable {d : Declaration} (ms : List Property) (e : Option Property)

theorem schema_object (kind : d.kind = .object) :
    schema extra ⟨d, ms, e⟩ = .object (heading "object" d.displayName d.description ++
      levelMembers extra ms (schemas extra ms)) := by
  simp only [schema, property, kind, Kind.text, fst_children_eq]

theorem schema_array (kind : d.kind = .array) :
    schema extra ⟨d, ms, e⟩ = .object (heading "array" d.displayName d.description ++
      member "items" (e.map (schema extra))) := by
  rw [schema, property, kind]
  cases e with
  | none => rfl
  | some q =>
    have items := fst_property extra (Warning.elementPath "") q
    simp only [element, items]
    rfl

theorem schema_scalar (kind : d.kind.isContainer = false) :
    schema extra ⟨d, ms, e⟩ = .object (heading d.kind.text d.displayName d.description ++
      (d.constraints.map (constraintMembers d.kind)).getD []) := by
  cases h : d.kind with
  | object | array => simp [h, Kind.isContainer] at kind
  | string | integer | number | boolean => simp only [schema, property, h]

theorem document_compile (t : Tree) (m : Metadata) :
    (compile t m).document = .object (heading "object" (some m.title) m.description ++
      levelMembers m.additionalProperties t.roots (schemas m.additionalProperties t.roots)) := by
  simp only [compile, fst_children_eq]

theorem inFirstOrder_firsts (ps : List Property) :
    InFirstOrder (ps.map Property.name) ((firsts ps).map Property.name) := by
  induction ps with
  | nil => exact ⟨by simp [firsts], .nil⟩
  | cons p ps ih =>
    have others : ((firsts ps).filter fun q => q.name != p.name).map Property.name =
        ((firsts ps).map Property.name).filter (· != p.name) := by
      rw [List.filter_map]
      rfl
    rw [firsts, List.map_cons, List.map_cons, others]
    exact .cons (ih.filter _)

theorem nodup_firsts (ps : List Property) : ((firsts ps).map Property.name).Nodup :=
  (inFirstOrder_firsts ps).nodup

theorem firsts_of_nodup {ps : List Property} (names : (ps.map Property.name).Nodup) :
    firsts ps = ps := by
  induction ps with
  | nil => rfl
  | cons p ps ih =>
    rw [List.map_cons, List.nodup_cons] at names
    rw [firsts, ih names.2, List.filter_eq_self.2]
    intro q mem
    have other : q.name ≠ p.name := fun same => names.1 (List.mem_map.2 ⟨q, mem, same⟩)
    simpa using other

theorem requiredNames_congr {ps qs : List Property}
    (h : List.Forall₂ (fun p q => p.name = q.name ∧ p.decl.required = q.decl.required) ps qs) :
    requiredNames ps = requiredNames qs := by
  have kept := List.rel_filter (p := fun p => p.decl.required) (q := fun q => q.decl.required)
    (fun p q same => by simp only [same.2]) h
  rw [requiredNames, requiredNames,
    map_eq_map_iff_forall₂.2 (kept.imp fun _ _ same => And.left same)]

theorem names_schemas (ps : List Property) :
    (schemas extra ps).map Prod.fst = (firsts ps).map Property.name := by
  simp [schemas]

end CredentialSchema.SchemaPass

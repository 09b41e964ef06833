import Mathlib.Logic.Equiv.Basic
import CredentialSchema.Compile.Artifact
import CredentialSchema.Proofs.Compile.Document
import CredentialSchema.Proofs.Property.Alike

/-!
Artifacts depend on what they publish and on nothing else. Two projects that agree on the published
fields, place by place, have the same documents and digests, and the same warnings but for the
identifiers, which a warning names and a document does not. An identifier may be renamed to any
other, so in particular to a fresh one.
-/
namespace CredentialSchema

open Property (Alike)

def Warning.rename (σ : PropertyId → PropertyId) (w : Warning) : Warning := { w with id := σ w.id }

/-- The same result of a pass, but for the identifiers that its warnings name. -/
structure Renamed {α : Type} (σ : PropertyId → PropertyId) (r r' : α × List Warning) : Prop where
  result : r'.1 = r.1
  warnings : r'.2 = r.2.map (Warning.rename σ)

variable {σ : PropertyId → PropertyId}

namespace SchemaPass

/-- Two declarations that a schema tells apart by nothing but the identifiers in its warnings. -/
structure Agree (σ : PropertyId → PropertyId) (d d' : Declaration) : Prop where
  id : d'.id = σ d.id
  name : d'.name = d.name
  kind : d'.kind = d.kind
  required : d'.required = d.required
  displayName : d'.displayName = d.displayName
  description : d'.description = d.description
  constraints : d'.constraints = d.constraints

theorem requiredNames_eq {ps qs : List Property} (h : List.Forall₂ (Alike (Agree σ)) ps qs) :
    requiredNames qs = requiredNames ps := by
  refine (requiredNames_congr (h.imp ?_)).symm
  intro p q alike
  exact ⟨alike.decl.name.symm, alike.decl.required.symm⟩

mutual
theorem property_renamed (extra : Bool) : ∀ (p q : Property) (path : String),
    Alike (Agree σ) p q → Renamed σ (property extra path p) (property extra path q)
  | ⟨d, ms, e⟩, ⟨d', ms', e'⟩, path, .intro decl members element => by
    rw [property, property, decl.kind, decl.displayName, decl.description]
    cases d.kind with
    | object =>
      obtain ⟨result, warnings⟩ := children_renamed extra ms ms' path [] members
      refine ⟨?_, warnings⟩
      simp only [result, levelMembers, requiredNames_eq members]
    | array =>
      obtain ⟨result, warnings⟩ := element_renamed extra e e' path d d' decl element
      refine ⟨?_, warnings⟩
      simp only [result]
    | string | integer | number | boolean =>
      refine ⟨?_, rfl⟩
      simp only [decl.constraints]

theorem children_renamed (extra : Bool) : ∀ (ps qs : List Property) (path : String)
    (taken : List String), List.Forall₂ (Alike (Agree σ)) ps qs →
      Renamed σ (children extra path taken ps) (children extra path taken qs)
  | [], [], _, _, .nil => ⟨rfl, rfl⟩
  | p :: ps, q :: qs, path, taken, .cons first others => by
    have name : q.name = p.name := first.decl.name
    have id : q.id = σ p.id := first.decl.id
    have unnamed (path : String) :
        (if p.name.isEmpty then [(⟨σ p.id, path, .emptyName⟩ : Warning)] else []) =
          (if p.name.isEmpty then [⟨p.id, path, .emptyName⟩] else []).map (Warning.rename σ) := by
      split <;> rfl
    rw [children, children, name, id]
    cases taken.contains p.name with
    | true =>
      obtain ⟨result, warnings⟩ := children_renamed extra ps qs path taken others
      refine ⟨result, ?_⟩
      simp only [if_true, warnings, unnamed, List.map_append, List.map_cons]
      rfl
    | false =>
      obtain ⟨schema, inner⟩ := property_renamed extra p q (Warning.childPath path p.name) first
      obtain ⟨result, warnings⟩ := children_renamed extra ps qs path (p.name :: taken) others
      refine ⟨?_, ?_⟩
      · simp only [Bool.false_eq_true, if_false, schema, result]
      · simp only [Bool.false_eq_true, if_false, inner, warnings, unnamed, List.map_append]

theorem element_renamed (extra : Bool) : ∀ (e e' : Option Property) (path : String)
    (d d' : Declaration), Agree σ d d' → Option.Rel (Alike (Agree σ)) e e' →
      Renamed σ (element extra path d e) (element extra path d' e')
  | none, _, path, d, d', decl, .none => by
    rw [element, element, decl.id]
    exact ⟨rfl, rfl⟩
  | some p, _, path, _, _, _, .some alike => by
    obtain ⟨schema, warnings⟩ := property_renamed extra p _ (Warning.elementPath path) alike
    refine ⟨?_, warnings⟩
    simp only [element, schema]
end

theorem compile_renamed {t t' : Tree} {m m' : Metadata}
    (roots : List.Forall₂ (Alike (Agree σ)) t.roots t'.roots) (title : m'.title = m.title)
    (description : m'.description = m.description)
    (extra : m'.additionalProperties = m.additionalProperties) :
    (compile t' m').document = (compile t m).document ∧
      (compile t' m').warnings = (compile t m).warnings.map (Warning.rename σ) := by
  obtain ⟨result, warnings⟩ := children_renamed m.additionalProperties t.roots t'.roots "" [] roots
  rw [compile, compile, title, description, extra]
  refine ⟨?_, warnings⟩
  simp only [result, levelMembers, requiredNames_eq roots]

end SchemaPass

namespace ContextPass

/-- Two declarations that a context tells apart by nothing but the identifiers in its warnings. -/
structure Agree (σ : PropertyId → PropertyId) (d d' : Declaration) : Prop where
  id : d'.id = σ d.id
  name : d'.name = d.name
  kind : d'.kind = d.kind
  source : d'.source = d.source

theorem term_renamed (url vocabulary path : String) (terms : Terms) {d d' : Declaration}
    (h : Agree σ d d') :
    Renamed σ (term url vocabulary path terms d) (term url vocabulary path terms d') := by
  have iri : termIri url vocabulary d' = termIri url vocabulary d := by
    rw [termIri, termIri, h.source, h.name]
  rw [term, term, h.name, h.id, iri]
  cases terms.has d.name <;> cases d.name.isEmpty <;> exact ⟨rfl, rfl⟩

mutual
theorem visit_renamed (url vocabulary : String) : ∀ (p q : Property) (path : String)
    (terms : Terms), Alike (Agree σ) p q →
      Renamed σ (visit url vocabulary path terms p) (visit url vocabulary path terms q)
  | ⟨d, ms, e⟩, ⟨d', ms', e'⟩, path, terms, .intro decl members element => by
    rw [visit, visit, decl.kind]
    cases d.kind with
    | object => exact visitMembers_renamed url vocabulary ms ms' path terms members
    | array => exact visitElement_renamed url vocabulary e e' path terms d d' decl element
    | string | integer | number | boolean => exact term_renamed url vocabulary path terms decl

theorem visitMembers_renamed (url vocabulary : String) : ∀ (ps qs : List Property)
    (path : String) (terms : Terms), List.Forall₂ (Alike (Agree σ)) ps qs →
      Renamed σ (visitMembers url vocabulary path terms ps)
        (visitMembers url vocabulary path terms qs)
  | [], [], _, _, .nil => ⟨rfl, rfl⟩
  | p :: ps, q :: qs, path, terms, .cons first others => by
    have name : q.name = p.name := first.decl.name
    obtain ⟨table, here⟩ :=
      visit_renamed url vocabulary p q (Warning.childPath path p.name) terms first
    rw [visitMembers, visitMembers, name]
    -- The table that the first property leaves is the same, so the others meet the same one.
    simp only [table]
    obtain ⟨result, warnings⟩ := visitMembers_renamed url vocabulary ps qs path
      (visit url vocabulary (Warning.childPath path p.name) terms p).1 others
    exact ⟨result, by rw [here, warnings, List.map_append]⟩

theorem visitElement_renamed (url vocabulary : String) : ∀ (e e' : Option Property)
    (path : String) (terms : Terms) (d d' : Declaration), Agree σ d d' →
      Option.Rel (Alike (Agree σ)) e e' →
        Renamed σ (visitElement url vocabulary path terms d e)
          (visitElement url vocabulary path terms d' e')
  | none, _, path, terms, d, d', decl, .none => by
    rw [visitElement, visitElement, decl.id]
    exact ⟨rfl, rfl⟩
  | some p, _, path, terms, _, _, _, .some alike =>
    visit_renamed url vocabulary p _ (Warning.elementPath path) terms alike
end

theorem compile_renamed {t t' : Tree} {m m' : Metadata} (n : Namespaces)
    (roots : List.Forall₂ (Alike (Agree σ)) t.roots t'.roots) (title : m'.title = m.title)
    (category : m'.category = m.category) (name : m'.credentialName = m.credentialName) :
    (compile t' m' n).document = (compile t m n).document ∧
      (compile t' m' n).warnings = (compile t m n).warnings.map (Warning.rename σ) := by
  have iri : url m' n = url m n := by rw [url, url, title, category, name]
  obtain ⟨result, warnings⟩ :=
    visitMembers_renamed (url m n) n.vocabulary t.roots t'.roots "" header roots
  rw [compile, compile, iri]
  exact ⟨by simp only [result], warnings⟩

end ContextPass

/-- The same artifact, but for the identifiers that its warnings name. -/
def Artifact.rename (σ : PropertyId → PropertyId) (a : Artifact) : Artifact :=
  { a with warnings := a.warnings.map (Warning.rename σ) }

namespace Project

theorem compileAs_renamed {p q : Project} {mode : Mode} {n n' : Namespaces}
    (h : (q.pass mode n').document = (p.pass mode n).document ∧
      (q.pass mode n').warnings = (p.pass mode n).warnings.map (Warning.rename σ)) :
    q.compileAs mode n' = (p.compileAs mode n).rename σ := by
  simp only [compileAs, Artifact.rename, h.1, h.2]

/-- What a project publishes follows from the fields that are published, the document and its digest
to the letter, the warnings up to the new identifiers. Nothing else goes into a schema, not the
namespaces, the catalogue ids, the mode or the revision, and nothing else into a context. -/
theorem artifacts_of_alike (p q : Project) (σ : PropertyId → PropertyId) :
    (List.Forall₂ (Alike (SchemaPass.Agree σ)) p.tree.roots q.tree.roots →
      q.metadata.title = p.metadata.title →
      q.metadata.description = p.metadata.description →
      q.metadata.additionalProperties = p.metadata.additionalProperties →
      ∀ n n', q.compileAs .schema n' = (p.compileAs .schema n).rename σ) ∧
    (List.Forall₂ (Alike (ContextPass.Agree σ)) p.tree.roots q.tree.roots →
      q.metadata.title = p.metadata.title →
      q.metadata.category = p.metadata.category →
      q.metadata.credentialName = p.metadata.credentialName →
      ∀ n, q.compileAs .context n = (p.compileAs .context n).rename σ) := by
  constructor
  · intro roots title description extra n n'
    apply compileAs_renamed
    exact SchemaPass.compile_renamed roots title description extra
  · intro roots title category name n
    apply compileAs_renamed
    exact ContextPass.compile_renamed n roots title category name

/-- Two cities of one home with their identifiers exchanged. Schemas cannot tell the projects apart
although the second has its cities from the catalogue, and a category. Neither can contexts tell the
second from a third, in which the cities are required and have a title. -/
theorem artifacts_of_alike_cities :
    let first : PropertyId := ⟨.numbered 1⟩
    let second : PropertyId := ⟨.numbered 2⟩
    let home (a b : Declaration) : Tree :=
      ⟨[⟨{ id := ⟨.numbered 0⟩, name := "home", kind := .object }, [⟨a, [], none⟩, ⟨b, [], none⟩],
        none⟩], 3⟩
    let city (id : PropertyId) : Declaration := { id, name := "city" }
    let sourced (id : PropertyId) : Declaration := { city id with source := some "schema:City" }
    let titled (id : PropertyId) : Declaration :=
      { sourced id with required := true, displayName := some "City" }
    let filed : Metadata := { title := "Home", category := some "Id", mode := .context }
    let p : Project := ⟨⟨.numbered 7⟩, { title := "Home" }, home (city first) (city second)⟩
    let q : Project := ⟨⟨.numbered 8⟩, filed, home (sourced second) (sourced first)⟩
    let r : Project := ⟨⟨.numbered 9⟩, { filed with additionalProperties := false },
      home (titled first) (titled second)⟩
    let swapped := Equiv.swap first second
    q.compileAs .schema {} = (p.compileAs .schema {}).rename swapped ∧
      q.compileAs .context {} = (r.compileAs .context {}).rename swapped ∧
      (q.compileAs .schema {}).warnings ≠ (p.compileAs .schema {}).warnings := by
  intro first second home city sourced titled filed p q r swapped
  have homes {R : Declaration → Declaration → Prop} {a b c d : Declaration}
      (outer : R { id := ⟨.numbered 0⟩, name := "home", kind := .object }
        { id := ⟨.numbered 0⟩, name := "home", kind := .object }) (left : R a c) (right : R b d) :
      List.Forall₂ (Alike R) (home a b).roots (home c d).roots :=
    .cons (.intro outer (.cons (.intro left .nil .none) (.cons (.intro right .nil .none) .nil))
      .none) .nil
  have fixed : (⟨.numbered 0⟩ : PropertyId) = swapped ⟨.numbered 0⟩ := by decide
  have up : second = swapped first := by decide
  have down : first = swapped second := by decide
  refine ⟨?_, ?_, by decide +kernel⟩
  · refine (artifacts_of_alike p q swapped).1 (homes ?_ ?_ ?_) rfl rfl rfl {} {}
    · exact ⟨fixed, rfl, rfl, rfl, rfl, rfl, rfl⟩
    · exact ⟨up, rfl, rfl, rfl, rfl, rfl, rfl⟩
    · exact ⟨down, rfl, rfl, rfl, rfl, rfl, rfl⟩
  · refine (artifacts_of_alike r q swapped).2 (homes ?_ ?_ ?_) rfl rfl rfl {}
    · exact ⟨fixed, rfl, rfl, rfl⟩
    · exact ⟨up, rfl, rfl, rfl⟩
    · exact ⟨down, rfl, rfl, rfl⟩

end Project
end CredentialSchema

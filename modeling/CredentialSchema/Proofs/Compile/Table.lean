import Mathlib.Data.List.Induction
import CredentialSchema.Compile.Context
import CredentialSchema.Proofs.Property.Subtree

/-!
The context document as a table of first claims. The pass reaches a property, then the members
of an object in order or the element definition of an array; in a legal tree that is every
property, depth first. What a property gives to the table and to the warnings depends only on
the properties reached before it, so both are read off that one list.
-/
namespace CredentialSchema.ContextPass

open Json (Value)

mutual
def reached : Property → List Property
  | ⟨d, ms, e⟩ => ⟨d, ms, e⟩ :: match d.kind with
    | .object => reachedInList ms
    | .array => reachedInOption e
    | _ => []

def reachedInList : List Property → List Property
  | [] => []
  | p :: ps => reached p ++ reachedInList ps

def reachedInOption : Option Property → List Property
  | none => []
  | some p => reached p
end

/-- A name is taken by a header key or by a leaf that came earlier. -/
def Claimed (earlier : List Property) (name : String) : Prop :=
  name ∈ ["@version", "@protected"] ∨
    ∃ p ∈ earlier, p.kind.isContainer = false ∧ p.name = name

instance (earlier : List Property) (name : String) : Decidable (Claimed earlier name) :=
  inferInstanceAs (Decidable (_ ∨ _))

/-- The entry of a property: only a leaf whose name is free has one. -/
def entry (url vocabulary : String) (earlier : List Property) (p : Property) : Terms :=
  if p.kind.isContainer ∨ Claimed earlier p.name then []
  else [(p.name, .string (termIri url vocabulary p.decl))]

/-- What is wrong with a property: a leaf may have no name and may find its name taken, and an
array may lack its element definition. -/
def defects (earlier : List Property) (p : Property) : List (PropertyId × Defect) :=
  if p.kind.isContainer then
    if p.kind = .array ∧ p.element = none then [(p.id, .missingElement)] else []
  else
    (if p.name = "" then [(p.id, .emptyName)] else []) ++
      (if Claimed earlier p.name then [(p.id, .duplicateTerm)] else [])

/-- What listed properties give in turn, each in view of those before it. -/
def inTurn {α : Type} (give : List Property → Property → List α) :
    (earlier : List Property) → List Property → List α
  | _, [] => []
  | earlier, p :: ps => give earlier p ++ inTurn give (earlier ++ [p]) ps

theorem inTurn_append {α : Type} (give : List Property → Property → List α)
    (earlier ps qs : List Property) :
    inTurn give earlier (ps ++ qs) =
      inTurn give earlier ps ++ inTurn give (earlier ++ ps) qs := by
  induction ps generalizing earlier with
  | nil => simp [inTurn]
  | cons p ps ih => simp [inTurn, ih]

theorem inTurn_snoc {α : Type} (give : List Property → Property → List α) (ps : List Property)
    (p : Property) : inTurn give [] (ps ++ [p]) = inTurn give [] ps ++ give ps p := by
  simp [inTurn_append, inTurn]

theorem claimed_snoc (earlier : List Property) (p : Property) (name : String) :
    Claimed (earlier ++ [p]) name ↔
      Claimed earlier name ∨ p.kind.isContainer = false ∧ p.name = name := by
  simp only [Claimed, List.mem_append, List.mem_singleton, or_and_right, exists_or,
    exists_eq_left, or_assoc]

variable (url vocabulary : String)

def table (earlier : List Property) : Terms := header ++ inTurn (entry url vocabulary) [] earlier

theorem table_snoc (earlier : List Property) (p : Property) :
    table url vocabulary (earlier ++ [p]) =
      table url vocabulary earlier ++ entry url vocabulary earlier p := by
  rw [table, inTurn_snoc, ← List.append_assoc, table]

theorem table_snoc_container (earlier : List Property) {p : Property}
    (h : p.kind.isContainer = true) :
    table url vocabulary (earlier ++ [p]) = table url vocabulary earlier := by
  simp [table_snoc, entry, h]

theorem has_append (terms terms' : Terms) (name : String) :
    (terms ++ terms').has name = (terms.has name || terms'.has name) := List.any_append

theorem has_table_iff (earlier : List Property) (name : String) :
    (table url vocabulary earlier).has name ↔ Claimed earlier name := by
  induction earlier using List.reverseRecOn with
  | nil => simp [table, inTurn, header, Terms.has, Claimed, Eq.comm (a := name)]
  | append_singleton earlier p ih =>
    rw [table_snoc, has_append, Bool.or_eq_true, ih, claimed_snoc, entry]
    cases container : p.kind.isContainer with
    | true => simp [Terms.has]
    | false =>
      by_cases taken : Claimed earlier p.name
      · simp only [taken, or_true, if_true]
        constructor
        · exact fun h => .inl (h.resolve_right (by simp [Terms.has]))
        · rintro (h | ⟨-, rfl⟩)
          · exact .inl h
          · exact .inl taken
      · simp [taken, Terms.has]

theorem term_table (path : String) (earlier : List Property) {d : Declaration}
    (leaf : d.kind.isContainer = false) (ms : List Property) (e : Option Property) :
    let r := term url vocabulary path (table url vocabulary earlier) d
    r.1 = table url vocabulary (earlier ++ [⟨d, ms, e⟩]) ∧
      r.2.map (fun w => (w.id, w.defect)) = defects earlier ⟨d, ms, e⟩ := by
  intro r
  have taken := has_table_iff url vocabulary earlier d.name
  rw [table_snoc]
  by_cases claimed : Claimed earlier d.name
  · simp only [r, term, entry, defects, leaf, taken.2 claimed, claimed]
    by_cases unnamed : d.name = "" <;> simp [Property.name, unnamed]
  · have free : (table url vocabulary earlier).has d.name = false := by simpa [claimed] using taken
    simp only [r, term, entry, defects, leaf, free, claimed]
    by_cases unnamed : d.name = "" <;> simp [Property.name, unnamed]

/-- The table and the warnings after what a visit has reached. -/
structure Visited (earlier reached : List Property) (r : Terms × List Warning) : Prop where
  terms : r.1 = table url vocabulary (earlier ++ reached)
  warnings : r.2.map (fun w => (w.id, w.defect)) = inTurn defects earlier reached

variable {url vocabulary}

theorem Visited.below {earlier below : List Property} {p : Property} {r : Terms × List Warning}
    (container : p.kind.isContainer = true) (quiet : p.kind = .array → p.element ≠ none)
    (h : Visited url vocabulary (earlier ++ [p]) below r)  :
    Visited url vocabulary earlier (p :: below) r := by
  obtain ⟨terms, warnings⟩ := h
  refine ⟨by simpa using terms, ?_⟩
  have none_here : defects earlier p = [] := by
    simp only [defects, container, if_true, ite_eq_right_iff, reduceCtorEq, imp_false, not_and]
    exact quiet
  rw [warnings, inTurn, none_here, List.nil_append]

variable (url vocabulary)

mutual
theorem visit_visited : ∀ (p : Property) (path : String) (earlier : List Property),
    Visited url vocabulary earlier (reached p)
      (visit url vocabulary path (table url vocabulary earlier) p)
  | ⟨d, ms, e⟩, path, earlier => by
    have pass (container : d.kind.isContainer = true) :
        table url vocabulary earlier = table url vocabulary (earlier ++ [⟨d, ms, e⟩]) :=
      (table_snoc_container url vocabulary earlier container).symm
    rw [visit, reached]
    cases kind : d.kind with
    | object =>
      have container : d.kind.isContainer = true := by simp [kind, Kind.isContainer]
      rw [pass container]
      exact (visitMembers_visited ms path _).below container (by simp [Property.kind, kind])
    | array =>
      have container : d.kind.isContainer = true := by simp [kind, Kind.isContainer]
      rw [pass container]
      cases e with
      | none =>
        refine ⟨?_, ?_⟩
        · simp [visitElement, reachedInOption]
        · simp [visitElement, reachedInOption, inTurn, defects, Property.kind, kind,
            Kind.isContainer]
      | some q => exact (visit_visited q _ _).below container (by simp)
    | string | integer | number | boolean =>
      have leaf : d.kind.isContainer = false := by simp [kind, Kind.isContainer]
      obtain ⟨terms, warnings⟩ := term_table url vocabulary path earlier leaf ms e
      exact ⟨terms, by simpa [inTurn] using warnings⟩

theorem visitMembers_visited : ∀ (ps : List Property) (path : String) (earlier : List Property),
    Visited url vocabulary earlier (reachedInList ps)
      (visitMembers url vocabulary path (table url vocabulary earlier) ps)
  | [], path, earlier => ⟨by simp [visitMembers, reachedInList], rfl⟩
  | p :: ps, path, earlier => by
    obtain ⟨terms, warnings⟩ := visit_visited p (Warning.childPath path p.name) earlier
    obtain ⟨terms', warnings'⟩ := visitMembers_visited ps path (earlier ++ reached p)
    refine ⟨?_, ?_⟩
    · simp only [visitMembers, reachedInList, terms, terms', List.append_assoc]
    · simp only [visitMembers, reachedInList, terms, inTurn_append, List.map_append, warnings,
        warnings']
end

mutual
theorem reached_eq_subtree : ∀ p : Property, Property.Legal [p] → reached p = p.subtree
  | ⟨d, ms, e⟩, h => by
    rw [Property.legal_cons] at h
    obtain ⟨⟨members, element⟩, legalMembers, legalElement, -⟩ := h
    have inMembers := reachedInList_eq_subtree ms legalMembers
    have inElement := reachedInOption_eq_subtree e legalElement
    have noMembers (h : d.kind ≠ .object) : ms = [] := by
      by_contra present
      exact h (members present)
    have noElement (h : d.kind ≠ .array) : e = none := by
      by_contra present
      exact h (element present)
    rw [reached, Property.subtree]
    cases kind : d.kind with
    | object => simp [inMembers, noElement (by simp [kind]), Property.subtreeOfList]
    | array => simp [inElement, noMembers (by simp [kind]), Property.subtreeOfList]
    | string | integer | number | boolean =>
      simp [noMembers (by simp [kind]), noElement (by simp [kind]), Property.subtreeOfList]

theorem reachedInList_eq_subtree : ∀ ps : List Property, Property.Legal ps →
    reachedInList ps = Property.subtreeOfList ps
  | [], _ => rfl
  | p :: ps, h => by
    have split := (Property.legal_append [p] ps).1 h
    rw [reachedInList, Property.subtreeOfList, reached_eq_subtree p split.1,
      reachedInList_eq_subtree ps split.2]

theorem reachedInOption_eq_subtree : ∀ e : Option Property, Property.Legal e.toList →
    reachedInOption e = Property.subtreeOfOption e
  | none, _ => rfl
  | some p, h => reached_eq_subtree p h
end

/-- The context document of any tree: the two header keys and then the entries of the reached
leaves in turn, under the derived URL, with the defects in turn as warnings. In a legal tree
every property is reached. -/
theorem compile_first_claims (t : Tree) (m : Metadata) (n : Namespaces) :
    let url := ContextUrl.derive n.context m.title m.category m.credentialName
    let walk := reachedInList t.roots
    (∃ version, Binary64.ofDecimal? false 11 (-1) = some version ∧
      (compile t m n).document = .object
        [("@context", .object (("@version", .number (.float version)) ::
          ("@protected", .bool true) :: inTurn (entry url n.vocabulary) [] walk)),
        ("@id", .string url)]) ∧
      (compile t m n).warnings.map (fun w => (w.id, w.defect)) = inTurn defects [] walk ∧
      (Property.Legal t.roots → walk = Property.subtreeOfList t.roots) := by
  intro url walk
  obtain ⟨terms, warnings⟩ := visitMembers_visited url n.vocabulary t.roots "" []
  have start : table url n.vocabulary [] = header := rfl
  rw [start] at terms warnings
  refine ⟨?_, warnings, reachedInList_eq_subtree t.roots⟩
  obtain ⟨version, nearest⟩ : ∃ version, Binary64.ofDecimal? false 11 (-1) = some version :=
    Option.isSome_iff_exists.1 (by decide +kernel)
  have heading : header = [("@version", .number (.float version)), ("@protected", .bool true)] := by
    simp [header, nearest]
  refine ⟨version, nearest, ?_⟩
  have document : (compile t m n).document =
      .object [("@context", .object (visitMembers url n.vocabulary "" header t.roots).1),
        ("@id", .string url)] := rfl
  rw [document, terms, table, heading]
  simp [walk]

/-- Two cities, the second of them too late, around an array without an element definition. -/
theorem compile_first_claims_two_cities :
    let leaf (n : Nat) (name : String) : Property := .fresh ⟨.numbered n⟩ .string name
    let home : Property := ⟨{ id := ⟨.numbered 0⟩, name := "home", kind := .object },
      [leaf 1 "city", .fresh ⟨.numbered 2⟩ .array "tags", leaf 3 "city"], none⟩
    Property.Legal [home] ∧ reachedInList [home] = Property.subtreeOfList [home] ∧
      (compile ⟨[home], 0⟩ {} {}).warnings.map (fun w => (w.id, w.defect)) =
        [(⟨.numbered 2⟩, .missingElement), (⟨.numbered 3⟩, .duplicateTerm)] := by
  intro leaf home
  have permitted : (Property.subtreeOfList [home]).all Property.hasLegalChildren := by
    decide +kernel
  have legal : Property.Legal [home] := fun p mem =>
    (Property.hasLegalChildren_iff p).1 (List.all_eq_true.1 permitted p mem)
  obtain ⟨-, warnings, all⟩ := compile_first_claims ⟨[home], 0⟩ {} {}
  refine ⟨legal, all legal, warnings.trans ?_⟩
  decide +kernel

end CredentialSchema.ContextPass

import Mathlib.Data.List.Basic
import CredentialSchema.Compile.Context

/-!
The table of terms, read off the leaves. The pass visits the leaves depth first and each of
them claims its name, so the table is a fold over the list of leaves, in which the first leaf
of a name has its say and every later one is passed over.
-/
namespace CredentialSchema.ContextPass

open Json (Value)

mutual
/-- What the leaves of a property declare, depth first. -/
def leaves : Property → List Declaration
  | ⟨d, ms, e⟩ =>
    match d.kind with
    | .object => leavesOfList ms
    | .array => leavesOfOption e
    | _ => [d]

def leavesOfList : List Property → List Declaration
  | [] => []
  | p :: ps => leaves p ++ leavesOfList ps

def leavesOfOption : Option Property → List Declaration
  | none => []
  | some p => leaves p
end

def claim (url vocabulary : String) (terms : Terms) (d : Declaration) : Terms :=
  if terms.has d.name then terms else terms ++ [(d.name, .string (termIri url vocabulary d))]

variable (url vocabulary : String)

@[simp] theorem leavesOfList_append (ps qs : List Property) :
    leavesOfList (ps ++ qs) = leavesOfList ps ++ leavesOfList qs := by
  induction ps with
  | nil => rfl
  | cons p ps ih => simp [leavesOfList, ih]

theorem fst_term (path : String) (terms : Terms) (d : Declaration) :
    (term url vocabulary path terms d).1 = claim url vocabulary terms d := by
  rw [term, claim]
  split_ifs <;> rfl

mutual
theorem fst_visit : ∀ (p : Property) (path : String) (terms : Terms),
    (visit url vocabulary path terms p).1 = (leaves p).foldl (claim url vocabulary) terms
  | ⟨d, ms, e⟩, path, terms => by
    have members := fst_visitMembers ms path terms
    have element := fst_visitElement e d path terms
    rw [visit, leaves]
    cases d.kind with
    | object => exact members
    | array => exact element
    | _ => exact fst_term url vocabulary path terms d

theorem fst_visitMembers : ∀ (ps : List Property) (path : String) (terms : Terms),
    (visitMembers url vocabulary path terms ps).1 =
      (leavesOfList ps).foldl (claim url vocabulary) terms
  | [], _, _ => rfl
  | p :: ps, path, terms => by
    have first := fst_visit p (Warning.childPath path p.name) terms
    rw [visitMembers, leavesOfList, List.foldl_append, ← first]
    exact fst_visitMembers ps path _

theorem fst_visitElement : ∀ (e : Option Property) (d : Declaration) (path : String)
    (terms : Terms), (visitElement url vocabulary path terms d e).1 =
      (leavesOfOption e).foldl (claim url vocabulary) terms
  | none, _, _, _ => rfl
  | some p, _, path, terms => fst_visit p (Warning.elementPath path) terms
end

theorem has_iff (terms : Terms) (name : String) :
    terms.has name ↔ ∃ v, terms.lookup name = some v := by
  induction terms with
  | nil => simp [Terms.has]
  | cons m terms ih =>
    rw [Terms.has, List.any_cons, List.lookup_cons]
    by_cases same : name = m.1
    · subst same
      simp
    · have other : (m.1 == name) = false := beq_eq_false_iff_ne.2 (Ne.symm same)
      have otherKey : (name == m.1) = false := beq_eq_false_iff_ne.2 same
      rw [other, otherKey, Bool.false_or]
      exact ih

theorem lookup_foldl_claim (ds : List Declaration) (terms : Terms) (name : String) :
    (ds.foldl (claim url vocabulary) terms).lookup name =
      (terms.lookup name).or ((ds.find? fun d => d.name == name).map fun d =>
        .string (termIri url vocabulary d)) := by
  induction ds generalizing terms with
  | nil => simp
  | cons d ds ih =>
    rw [List.foldl_cons, ih, claim, List.find?_cons]
    by_cases same : d.name = name
    · subst same
      by_cases taken : terms.has d.name
      · obtain ⟨v, hv⟩ := (has_iff terms d.name).1 taken
        simp [taken, hv]
      · have absent : terms.lookup d.name = none :=
          Option.eq_none_iff_forall_ne_some.2 fun v hv => taken ((has_iff terms d.name).2 ⟨v, hv⟩)
        simp [taken, absent, List.lookup_append]
    · have other : (d.name == name) = false := beq_eq_false_iff_ne.2 same
      have otherKey : (name == d.name) = false := beq_eq_false_iff_ne.2 (Ne.symm same)
      by_cases taken : terms.has d.name
      · simp [taken, other]
      · simp [taken, other, otherKey, List.lookup_append, List.lookup_cons]

theorem entry_compile (t : Tree) (m : Metadata) (n : Namespaces) {name : String}
    (notHeader : name ∉ header.map Prod.fst) :
    ((compile t m n).document.get? "@context").bind (fun terms => terms.get? name) =
      ((leavesOfList t.roots).find? fun d => d.name == name).map fun d =>
        .string (termIri (ContextPass.url m n) n.vocabulary d) := by
  have absent : header.lookup name = none := by
    refine List.lookup_eq_none_iff.2 fun k mem => ?_
    have other : name ≠ k.1 := fun same => notHeader (same ▸ List.mem_map_of_mem mem)
    simpa using other
  have table := lookup_foldl_claim (ContextPass.url m n) n.vocabulary (leavesOfList t.roots)
    header name
  rw [absent, Option.none_or, ← fst_visitMembers _ _ t.roots "" header] at table
  exact table

end CredentialSchema.ContextPass

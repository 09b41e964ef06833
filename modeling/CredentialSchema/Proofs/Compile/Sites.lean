import CredentialSchema.Check.Strictness
import CredentialSchema.Compile.Schema
import CredentialSchema.Proofs.Lists
import CredentialSchema.Proofs.Property.Subtree

/-!
What a schema shows of a tree. Of several siblings with one name the schema pass compiles the
first, so a later one has no place in the schema, nor has anything below it. `sites` lists the
properties that have one, each with the steps that lead to it, and the compiled children of an
object level are those of `firsts`, in order.
-/
namespace CredentialSchema.SchemaPass

open Json (Value)

inductive Step
  | member (name : String)
  | element
deriving DecidableEq, Repr

/-- The part of a JSON pointer that goes the same step down a schema. -/
def Step.pointer : Step → String
  | .member name => "/properties/" ++ Strictness.escapeSegment name
  | .element => "/items"

def pointer : List Step → String
  | [] => ""
  | s :: ss => s.pointer ++ pointer ss

/-- A property with the steps that lead to it. -/
structure Site where
  steps : List Step
  property : Property

def Site.below (s : Step) (site : Site) : Site := { site with steps := s :: site.steps }

mutual
/-- A property and what the schema shows below it: the members of an object, of which an earlier
one hides the later ones of its name, and the element definition of an array. -/
def sites : Property → List Site
  | ⟨d, ms, e⟩ => ⟨[], ⟨d, ms, e⟩⟩ :: match d.kind with
    | .object => memberSites ms
    | .array => elementSites e
    | _ => []

def memberSites : List Property → List Site
  | [] => []
  | p :: ps => (sites p).map (.below (.member p.name)) ++
    (memberSites ps).filter fun s => s.steps.head? != some (.member p.name)

def elementSites : Option Property → List Site
  | none => []
  | some p => (sites p).map (.below .element)
end

/-- Of several siblings with one name the first. -/
def firsts : List Property → List Property
  | [] => []
  | p :: ps => p :: (firsts ps).filter fun q => q.name != p.name

theorem firsts_subset (ps : List Property) : firsts ps ⊆ ps := by
  induction ps with
  | nil => exact List.Subset.refl _
  | cons p ps ih =>
    rintro q mem
    rcases List.mem_cons.1 mem with rfl | mem
    · exact List.mem_cons_self
    · exact List.mem_cons_of_mem p (ih (List.mem_filter.1 mem).1)

theorem memberSites_eq (ps : List Property) :
    memberSites ps = (firsts ps).flatMap fun p => (sites p).map (.below (.member p.name)) := by
  induction ps with
  | nil => rfl
  | cons p ps ih =>
    have hidden (q : Property) :
        ((sites q).map (Site.below (.member q.name))).filter
            (fun s => s.steps.head? != some (.member p.name)) =
          if q.name != p.name then (sites q).map (Site.below (.member q.name)) else [] := by
      rw [List.filter_map]
      by_cases same : q.name = p.name
      · simp [same, Site.below, Function.comp_def]
      · have shown : (some (Step.member q.name) != some (.member p.name)) = true := by simp [same]
        simp [same, Site.below, Function.comp_def, shown]
    rw [memberSites, firsts, List.flatMap_cons, ih, List.filter_flatMap, flatMap_filter]
    simp only [hidden]

/-- The properties directly below one that the schema shows. -/
def shown : Property → List Property
  | ⟨d, ms, e⟩ => match d.kind with
    | .object => firsts ms
    | .array => e.toList
    | _ => []

/-- Induction on what the schema shows of a property. -/
theorem shown_induct {motive : Property → Prop}
    (node : ∀ p, (∀ q ∈ shown p, motive q) → motive p) (p : Property) : motive p := by
  induction p using Property.induct with
  | node d ms e members element =>
    refine node ⟨d, ms, e⟩ fun q mem => ?_
    rw [shown] at mem
    split at mem
    · exact members q (firsts_subset ms mem)
    · exact element q (Option.mem_toList.1 mem)
    · cases mem

theorem forall_memberSites_iff (ms : List Property) (motive : Property → Prop) :
    (∀ s ∈ memberSites ms, motive s.property) ↔
      ∀ q ∈ firsts ms, ∀ s ∈ sites q, motive s.property := by
  simp only [memberSites_eq, List.forall_mem_flatMap, List.forall_mem_map, Site.below]

theorem forall_sites_iff (p : Property) (motive : Property → Prop) :
    (∀ s ∈ sites p, motive s.property) ↔
      motive p ∧ ∀ q ∈ shown p, ∀ s ∈ sites q, motive s.property := by
  obtain ⟨d, ms, e⟩ := p
  rw [sites, List.forall_mem_cons]
  refine and_congr_right fun _ => ?_
  cases kind : d.kind with
  | object =>
    simp only [shown, kind]
    exact forall_memberSites_iff ms motive
  | array =>
    cases e with
    | none => simp [shown, kind, elementSites]
    | some p => simp [shown, kind, elementSites, Site.below]
  | string | integer | number | boolean => simp [shown, kind]

theorem fst_children (extra : Bool) (path : String) (taken : List String) (ps : List Property) :
    (children extra path taken ps).1 = ((firsts ps).filter fun p => !taken.contains p.name).map
      fun p => (p.name, (property extra (Warning.childPath path p.name) p).1) := by
  induction ps generalizing taken with
  | nil => rfl
  | cons p ps ih =>
    rw [children, firsts]
    cases repeated : taken.contains p.name with
    | true =>
      have others : (fun q : Property => !taken.contains q.name && q.name != p.name) =
          fun q => !taken.contains q.name := by
        funext q
        by_cases same : q.name = p.name
        · simp only [same, repeated, Bool.not_true, Bool.false_and]
        · simp [same]
      rw [List.filter_cons_of_neg (by simpa using repeated), List.filter_filter, others]
      exact ih taken
    | false =>
      have others : (fun q : Property => !taken.contains q.name && q.name != p.name) =
          fun q => !(p.name :: taken).contains q.name := by
        funext q
        by_cases same : q.name = p.name <;> simp [same]
      rw [List.filter_cons_of_pos (by simpa using repeated), List.filter_filter, others,
        List.map_cons, ← ih (p.name :: taken)]
      rfl

theorem fst_children_nil (extra : Bool) (path : String) (ps : List Property) :
    (children extra path [] ps).1 = (firsts ps).map
      fun p => (p.name, (property extra (Warning.childPath path p.name) p).1) := by
  simp [fst_children]

end CredentialSchema.SchemaPass

import CredentialSchema.Compile.Artifact
import CredentialSchema.Proofs.Compile.Document
import CredentialSchema.Proofs.Compile.Terms
import CredentialSchema.Proofs.Json.Canonical
import CredentialSchema.Proofs.Tree.Edit

/-!
Digests and the order of siblings. Two neighbours that do not compete for a name can change places
anywhere in a tree: the members of a level come in another order then, and so do the terms of a
context, but the canonical text sorts both. Competing neighbours are two of one name, two that put
their names on one required list, and, for the terms, two with leaves of one name.
-/
namespace CredentialSchema

open Json (Value)
open Json.Value (canonical canonicalMembers canonicalMembers_eq_map canonicalMembers_perm
  canonical_object_of_perm)
open Property (Splice)

namespace SchemaPass

/-- Two lists of children that give an object level one canonical text. -/
structure SameLevel (extra : Bool) (ps qs : List Property) : Prop where
  required : requiredNames ps = requiredNames qs
  properties : (canonicalMembers (schemas extra ps)).Perm (canonicalMembers (schemas extra qs))

/-- Two properties that have one entry in the level they stand in. -/
structure SameEntry (extra : Bool) (p q : Property) : Prop where
  name : p.name = q.name
  required : p.decl.required = q.decl.required
  text : (schema extra p).canonical = (schema extra q).canonical

variable {extra : Bool} {ps qs : List Property} {a b : Property}

theorem canonicalMembers_schemas (ps : List Property) :
    canonicalMembers (schemas extra ps) =
      (firsts ps).map fun p => (Json.quote p.name, (schema extra p).canonical) := by
  rw [canonicalMembers_eq_map, schemas, List.map_map]
  rfl

theorem SameLevel.text (h : SameLevel extra ps qs) (head : List (String × Value)) :
    canonical (.object (head ++ levelMembers extra ps (schemas extra ps))) =
      canonical (.object (head ++ levelMembers extra qs (schemas extra qs))) := by
  have distinct : ((schemas extra ps).map Prod.fst).Nodup := by
    rw [names_schemas]
    exact nodup_firsts ps
  have inner := canonical_object_of_perm h.properties distinct
  have members : canonicalMembers (head ++ levelMembers extra ps (schemas extra ps)) =
      canonicalMembers (head ++ levelMembers extra qs (schemas extra qs)) := by
    simp only [canonicalMembers_eq_map, levelMembers, h.required, List.map_append, List.map_cons,
      inner]
  rw [canonical, canonical, members]

theorem firsts_swap (before after : List Property) (other : a.name ≠ b.name) :
    (firsts (before ++ a :: b :: after)).Perm (firsts (before ++ b :: a :: after)) := by
  induction before with
  | nil =>
    have both : (firsts after).filter (fun q => q.name != a.name && q.name != b.name) =
        (firsts after).filter fun q => q.name != b.name && q.name != a.name := by
      simp only [Bool.and_comm]
    simp only [List.nil_append, firsts, List.filter_cons, bne_iff_ne, ne_eq, other, Ne.symm other,
      not_false_eq_true, if_true, List.filter_filter, both]
    exact .swap b a _
  | cons p before ih =>
    simp only [List.cons_append, firsts]
    exact (ih.filter _).cons p

theorem requiredNames_swap (before after : List Property)
    (optional : ¬(a.decl.required ∧ b.decl.required)) :
    requiredNames (before ++ a :: b :: after) = requiredNames (before ++ b :: a :: after) := by
  have kept : (before ++ a :: b :: after).filter (fun p => p.decl.required) =
      (before ++ b :: a :: after).filter fun p => p.decl.required := by
    cases ha : a.decl.required <;> cases hb : b.decl.required <;> simp_all
  rw [requiredNames, requiredNames, kept]

theorem sameLevel_swap (before after : List Property) (other : a.name ≠ b.name)
    (optional : ¬(a.decl.required ∧ b.decl.required)) :
    SameLevel extra (before ++ [a, b] ++ after) (before ++ [b, a] ++ after) := by
  simp only [List.append_assoc, List.cons_append, List.nil_append]
  refine ⟨requiredNames_swap before after optional, ?_⟩
  rw [canonicalMembers_schemas, canonicalMembers_schemas]
  exact (firsts_swap before after other).map _

theorem forall₂_firsts {R : Property → Property → Prop} (names : ∀ p q, R p q → p.name = q.name)
    (h : List.Forall₂ R ps qs) : List.Forall₂ R (firsts ps) (firsts qs) := by
  induction h with
  | nil => exact .nil
  | @cons p q ps qs first _ ih =>
    refine .cons first (List.rel_filter ?_ ih)
    intro p' q' related
    simp only [names p q first, names p' q' related]

theorem sameLevel_of_entries (h : List.Forall₂ (SameEntry extra) ps qs) :
    SameLevel extra ps qs := by
  constructor
  · exact requiredNames_congr (h.imp fun _ _ same => ⟨same.name, same.required⟩)
  · have shown := forall₂_firsts (fun _ _ => SameEntry.name) h
    rw [canonicalMembers_schemas, canonicalMembers_schemas]
    refine List.Perm.of_eq (map_eq_map_iff_forall₂.2 (shown.imp ?_))
    intro p q same
    rw [same.name, same.text]

theorem sameLevel_replace {p q : Property} (before after : List Property)
    (same : SameEntry extra p q) :
    SameLevel extra (before ++ p :: after) (before ++ q :: after) := by
  have unchanged (ps : List Property) : List.Forall₂ (SameEntry extra) ps ps :=
    List.forall₂_same.2 fun p _ => ⟨rfl, rfl, rfl⟩
  exact sameLevel_of_entries (List.rel_append (unchanged before) (.cons same (unchanged after)))

theorem SameLevel.inMembers {ms ms' : List Property} (h : SameLevel extra ms ms')
    (d : Declaration) (e : Option Property) : SameEntry extra ⟨d, ms, e⟩ ⟨d, ms', e⟩ := by
  refine ⟨rfl, rfl, ?_⟩
  cases kind : d.kind with
  | object =>
    rw [schema_object extra ms e kind, schema_object extra ms' e kind]
    exact h.text _
  | array => rw [schema_array extra ms e kind, schema_array extra ms' e kind]
  | string | integer | number | boolean =>
    have scalar : d.kind.isContainer = false := by simp [kind, Kind.isContainer]
    rw [schema_scalar extra ms e scalar, schema_scalar extra ms' e scalar]

theorem SameLevel.element_text {e e' : Option Property} (h : SameLevel extra e.toList e'.toList) :
    e.map (fun p => (schema extra p).canonical) = e'.map fun p => (schema extra p).canonical := by
  have written := h.properties
  rw [canonicalMembers_schemas, canonicalMembers_schemas] at written
  cases e with
  | none => cases e' with
    | none => rfl
    | some q => simp [firsts] at written
  | some p => cases e' with
    | none => simp [firsts] at written
    | some q =>
      simp only [Option.toList_some, firsts, List.filter_nil, List.map_cons, List.map_nil,
        List.singleton_perm_singleton, Prod.mk.injEq] at written
      simp [written.2]

theorem SameLevel.inElement {e e' : Option Property} (h : SameLevel extra e.toList e'.toList)
    (d : Declaration) (ms : List Property) : SameEntry extra ⟨d, ms, e⟩ ⟨d, ms, e'⟩ := by
  refine ⟨rfl, rfl, ?_⟩
  cases kind : d.kind with
  | object => rw [schema_object extra ms e kind, schema_object extra ms e' kind]
  | array =>
    have items (e : Option Property) :
        canonicalMembers (member "items" (e.map (schema extra))) =
          (e.map fun p => (schema extra p).canonical).toList.map (Json.quote "items", ·) := by
      cases e <;> rfl
    rw [schema_array extra ms e kind, schema_array extra ms e' kind, canonical, canonical]
    simp only [canonicalMembers_eq_map, List.map_append] at items ⊢
    rw [items, items, h.element_text]
  | string | integer | number | boolean =>
    have scalar : d.kind.isContainer = false := by simp [kind, Kind.isContainer]
    rw [schema_scalar extra ms e scalar, schema_scalar extra ms e' scalar]

theorem sameLevel_of_splice (h : Splice [a, b] [b, a] ps qs) (other : a.name ≠ b.name)
    (optional : ¬(a.decl.required ∧ b.decl.required)) : SameLevel extra ps qs := by
  induction h with
  | here before after => exact sameLevel_swap before after other optional
  | inMembers before after d e _ ih => exact sameLevel_replace before after (ih.inMembers d e)
  | inElement before after d ms _ ih => exact sameLevel_replace before after (ih.inElement d ms)

end SchemaPass

namespace ContextPass

variable (url vocabulary : String)

theorem leavesOfOption_eq (e : Option Property) : leavesOfOption e = leavesOfList e.toList := by
  cases e <;> simp [leavesOfOption, leavesOfList]

theorem claim_of_has {terms : Terms} {d : Declaration} (taken : terms.has d.name = true) :
    claim url vocabulary terms d = terms := if_pos taken

theorem claim_of_free {terms : Terms} {d : Declaration} (free : terms.has d.name = false) :
    claim url vocabulary terms d =
      terms ++ [(d.name, .string (termIri url vocabulary d))] := if_neg (by simp [free])

theorem has_claim (terms : Terms) {d : Declaration} {name : String} (other : d.name ≠ name) :
    (claim url vocabulary terms d).has name = terms.has name := by
  rw [claim]
  split
  · rfl
  · simp [Terms.has, other]

theorem nodup_claim {terms : Terms} (distinct : (terms.map Prod.fst).Nodup) (d : Declaration) :
    ((claim url vocabulary terms d).map Prod.fst).Nodup := by
  rw [claim]
  split
  · exact distinct
  · next free =>
    have absent : d.name ∉ terms.map Prod.fst := by
      rw [List.mem_map]
      rintro ⟨m, mem, same⟩
      exact free (List.any_eq_true.2 ⟨m, mem, beq_iff_eq.2 same⟩)
    rw [List.map_append, List.map_singleton]
    exact distinct.append (List.nodup_singleton _) (List.disjoint_singleton.2 absent)

theorem nodup_foldl_claim {terms : Terms} (distinct : (terms.map Prod.fst).Nodup)
    (ds : List Declaration) :
    ((ds.foldl (claim url vocabulary) terms).map Prod.fst).Nodup := by
  induction ds generalizing terms with
  | nil => exact distinct
  | cons d ds ih => exact ih (nodup_claim url vocabulary distinct d)

theorem claim_perm {terms terms' : Terms} (order : terms.Perm terms') (d : Declaration) :
    (claim url vocabulary terms d).Perm (claim url vocabulary terms' d) := by
  have taken : terms.has d.name = terms'.has d.name := order.any_eq
  rw [claim, claim, taken]
  split
  · exact order
  · exact order.append_right _

theorem foldl_claim_perm {terms terms' : Terms} (order : terms.Perm terms')
    (ds : List Declaration) :
    (ds.foldl (claim url vocabulary) terms).Perm (ds.foldl (claim url vocabulary) terms') := by
  induction ds generalizing terms terms' with
  | nil => exact order
  | cons d ds ih => exact ih (claim_perm url vocabulary order d)

theorem claim_comm (terms : Terms) {d d' : Declaration} (other : d.name ≠ d'.name) :
    (claim url vocabulary (claim url vocabulary terms d) d').Perm
      (claim url vocabulary (claim url vocabulary terms d') d) := by
  have first := has_claim url vocabulary terms other
  have second := has_claim url vocabulary terms (Ne.symm other)
  cases taken : terms.has d.name with
  | true =>
    rw [claim_of_has url vocabulary taken, claim_of_has url vocabulary (second.trans taken)]
  | false =>
    rw [claim_of_free url vocabulary taken] at first ⊢
    rw [claim_of_free url vocabulary (second.trans taken)]
    cases taken' : terms.has d'.name with
    | true =>
      rw [claim_of_has url vocabulary taken', claim_of_has url vocabulary (first.trans taken')]
    | false =>
      rw [claim_of_free url vocabulary taken', claim_of_free url vocabulary (first.trans taken'),
        List.append_assoc, List.append_assoc]
      exact (List.Perm.swap _ _ []).append_left terms

theorem foldl_claim_past (terms : Terms) {d : Declaration} {ds : List Declaration}
    (other : ∀ x ∈ ds, d.name ≠ x.name) :
    (ds.foldl (claim url vocabulary) (claim url vocabulary terms d)).Perm
      (claim url vocabulary (ds.foldl (claim url vocabulary) terms) d) := by
  induction ds generalizing terms with
  | nil => exact .refl _
  | cons x ds ih =>
    rw [List.forall_mem_cons] at other
    have first := foldl_claim_perm url vocabulary (claim_comm url vocabulary terms other.1) ds
    exact first.trans (ih (claim url vocabulary terms x) other.2)

theorem foldl_claim_swap (terms : Terms) {ds ds' : List Declaration}
    (disjoint : ∀ x ∈ ds, ∀ y ∈ ds', x.name ≠ y.name) :
    ((ds ++ ds').foldl (claim url vocabulary) terms).Perm
      ((ds' ++ ds).foldl (claim url vocabulary) terms) := by
  induction ds generalizing terms with
  | nil => simp
  | cons d ds ih =>
    rw [List.forall_mem_cons] at disjoint
    have others := ih (claim url vocabulary terms d) disjoint.2
    have last := foldl_claim_perm url vocabulary
      (foldl_claim_past url vocabulary terms disjoint.1) ds
    simp only [List.cons_append, List.foldl_cons, List.foldl_append] at others last ⊢
    exact others.trans last

theorem terms_of_splice {a b : Property} {ps qs : List Property}
    (h : Splice [a, b] [b, a] ps qs)
    (disjoint : ∀ x ∈ leaves a, ∀ y ∈ leaves b, x.name ≠ y.name) (terms : Terms) :
    ((leavesOfList ps).foldl (claim url vocabulary) terms).Perm
      ((leavesOfList qs).foldl (claim url vocabulary) terms) := by
  -- The terms of what comes before are there in both orders, so `terms` has to be general.
  have nested (before after : List Property) {p q : Property}
      (inner : ∀ terms, ((leaves p).foldl (claim url vocabulary) terms).Perm
        ((leaves q).foldl (claim url vocabulary) terms)) (terms : Terms) :
      ((leavesOfList (before ++ p :: after)).foldl (claim url vocabulary) terms).Perm
        ((leavesOfList (before ++ q :: after)).foldl (claim url vocabulary) terms) := by
    simp only [leavesOfList_append, leavesOfList, List.foldl_append]
    exact foldl_claim_perm url vocabulary (inner _) _
  induction h generalizing terms with
  | here before after =>
    have swapped := foldl_claim_swap url vocabulary
      ((leavesOfList before).foldl (claim url vocabulary) terms) disjoint
    simpa only [leavesOfList_append, leavesOfList, List.append_nil, List.foldl_append] using
      foldl_claim_perm url vocabulary swapped (leavesOfList after)
  | inMembers before after d e _ ih =>
    refine nested before after (fun terms => ?_) terms
    rw [leaves, leaves]
    split
    · exact ih terms
    · exact .refl _
    · exact .refl _
  | inElement before after d ms _ ih =>
    refine nested before after (fun terms => ?_) terms
    rw [leaves, leaves]
    split
    · exact .refl _
    · rw [leavesOfOption_eq, leavesOfOption_eq]
      exact ih terms
    · exact .refl _

theorem document_compile (t : Tree) (m : Metadata) (n : Namespaces) :
    (compile t m n).document = .object [
      ("@context", .object ((leavesOfList t.roots).foldl
        (claim (ContextPass.url m n) n.vocabulary) header)),
      ("@id", .string (ContextPass.url m n))] := by
  rw [← fst_visitMembers _ _ t.roots "" header]
  rfl

end ContextPass

namespace Project

theorem canonicalBytes_context {p : Project} {t : Tree} {a b : Property} (n : Namespaces)
    (h : Splice [a, b] [b, a] p.tree.roots t.roots)
    (disjoint : ∀ x ∈ ContextPass.leaves a, ∀ y ∈ ContextPass.leaves b, x.name ≠ y.name) :
    (p.compileAs .context n).document.canonicalBytes =
      ({ p with tree := t }.compileAs .context n).document.canonicalBytes := by
  have order := ContextPass.terms_of_splice (ContextPass.url p.metadata n) n.vocabulary h disjoint
    ContextPass.header
  have distinct := ContextPass.nodup_foldl_claim (ContextPass.url p.metadata n) n.vocabulary
    (by decide : (ContextPass.header.map Prod.fst).Nodup) (ContextPass.leavesOfList p.tree.roots)
  have terms := canonical_object_of_perm (canonicalMembers_perm order) distinct
  rw [Value.canonicalBytes_inj]
  change (ContextPass.compile _ _ _).document.canonical =
    (ContextPass.compile _ _ _).document.canonical
  rw [ContextPass.document_compile, ContextPass.document_compile, canonical, canonical]
  simp only [canonicalMembers, terms]

theorem canonicalBytes_schema {p : Project} {t : Tree} {a b : Property} (n : Namespaces)
    (h : Splice [a, b] [b, a] p.tree.roots t.roots) (other : a.name ≠ b.name)
    (optional : ¬(a.decl.required ∧ b.decl.required)) :
    (p.compileAs .schema n).document.canonicalBytes =
      ({ p with tree := t }.compileAs .schema n).document.canonicalBytes := by
  rw [Value.canonicalBytes_inj]
  change (SchemaPass.compile _ _).document.canonical = (SchemaPass.compile _ _).document.canonical
  rw [SchemaPass.document_compile, SchemaPass.document_compile]
  exact (SchemaPass.sameLevel_of_splice h other optional).text _

/-- A move exchanges two neighbours. The digest input of a context stays as it was if they have no
leaves of one name, and that of a schema if they have different names and are not both required. -/
theorem canonicalBytes_move (p : Project) {id : PropertyId} {dir : Direction} {t : Tree}
    (moved : p.tree.move? id dir = some t) (n : Namespaces) :
    Property.Shifted id dir p.tree.roots t.roots ∧
      ∀ a b, Splice [a, b] [b, a] p.tree.roots t.roots →
        ((∀ x ∈ ContextPass.leaves a, ∀ y ∈ ContextPass.leaves b, x.name ≠ y.name) →
          (p.compileAs .context n).document.canonicalBytes =
            ({ p with tree := t }.compileAs .context n).document.canonicalBytes) ∧
        (a.name ≠ b.name → ¬(a.decl.required ∧ b.decl.required) →
          (p.compileAs .schema n).document.canonicalBytes =
            ({ p with tree := t }.compileAs .schema n).document.canonicalBytes) := by
  obtain ⟨roots, shifted, rfl⟩ := Tree.move?_cases moved
  refine ⟨shifted, fun a b h => ⟨?_, ?_⟩⟩
  · exact canonicalBytes_context n h
  · exact canonicalBytes_schema n h

/-- A list of tags goes up past the required city that it stands behind, inside of an object. The
documents are not the same, their digests are. -/
theorem canonicalBytes_move_tags :
    let city : Property := ⟨{ id := ⟨.numbered 1⟩, name := "city", required := true }, [], none⟩
    let tags : Property := ⟨{ id := ⟨.numbered 2⟩, name := "tags", kind := .array }, [],
      some (.fresh ⟨.numbered 3⟩ .string "tags")⟩
    let home (ms : List Property) : Property :=
      ⟨{ id := ⟨.numbered 0⟩, name := "home", kind := .object }, ms, none⟩
    let p : Project := ⟨⟨.numbered 9⟩, { title := "Home" }, ⟨[home [city, tags]], 4⟩⟩
    let q : Project := { p with tree := ⟨[home [tags, city]], 5⟩ }
    p.tree.move? ⟨.numbered 2⟩ .up = some q.tree ∧
      (∀ mode, (p.compileAs mode {}).digest = (q.compileAs mode {}).digest) ∧
      (p.compileAs .schema {}).document ≠ (q.compileAs .schema {}).document := by
  intro city tags home p q
  have moved : p.tree.move? ⟨.numbered 2⟩ .up = some q.tree := by decide +kernel
  obtain ⟨-, same⟩ := canonicalBytes_move p moved {}
  obtain ⟨context, schema⟩ := same city tags (.inMembers [] [] _ none (.here [] []))
  refine ⟨moved, ?_, by decide +kernel⟩
  rintro (_ | _)
  · exact congrArg (fun bytes => ContentDigest.mk (Sha256.hash bytes)) (context (by decide))
  · exact congrArg (fun bytes => ContentDigest.mk (Sha256.hash bytes))
      (schema (by decide) (by decide))

end Project
end CredentialSchema

import CredentialSchema.Proofs.Compile.Conformance
import CredentialSchema.Proofs.Compile.Table
import CredentialSchema.Proofs.Compile.Terms
import CredentialSchema.Proofs.Property.Named
import CredentialSchema.Proofs.Tree.Change

/-!
When element definitions carry their array's name. An array passes its name to a new element
definition and to the chain below it when it is renamed, so no operation parts the two but one:
a patch that names the element definition itself. Without such a patch an array of scalars has
one name at all its levels, the key of both published artifacts.
-/
namespace CredentialSchema.Tree

open Property hiding id

/-- A call that gives an element definition another name than its array has. -/
def Edit.SplitsName (t : Tree) : Edit → Prop
  | .update id u => ∃ p ∈ subtreeOfList t.roots, ∃ q ∈ p.element, q.id = id ∧
    ∃ name ∈ u.name, name ≠ p.name
  | _ => False

instance (t : Tree) (e : Edit) : Decidable (e.SplitsName t) :=
  match e with
  | .update id u => inferInstanceAs (Decidable (∃ p ∈ subtreeOfList t.roots, ∃ q ∈ p.element,
      q.id = id ∧ ∃ name ∈ u.name, name ≠ p.name))
  | .add _ | .delete _ | .move _ _ | .setElement _ _ | .importInto _ _ => .isFalse id

inductive UnsplitRun (x : Tree × IdSource) : Tree × IdSource → Prop
  | start : UnsplitRun x x
  | step (e : Edit) {y : Tree × IdSource} : UnsplitRun x y →
    y.2.Fresh (e.perform y).2 y.1.ids → ¬ e.SplitsName y.1 → UnsplitRun x (e.perform y)

variable {t t' : Tree} {s s' : IdSource} {target : Option PropertyId}

theorem UnsplitRun.run {x y : Tree × IdSource} (h : UnsplitRun x y) : Run x y := by
  induction h with
  | start => exact .start
  | step e _ fresh _ ih => exact ih.step e fresh

theorem named_place? {q : Property} (h : t.place? target q = some t')
    (named : Everywhere Named t.roots) (inner : Everywhere Named [q]) :
    Everywhere Named t'.roots := by
  rcases place?_splice h with ⟨rfl, -⟩ | ⟨id, p, rfl, -, spliced⟩
  · obtain rfl := Option.some.inj h
    exact (everywhere_append _ _).2 ⟨named, inner⟩
  · refine spliced.named (by simp [withMember]) (fun hp => ?_) named
    obtain ⟨d, ms, e⟩ := p
    rw [withMember]
    rw [everywhere_cons] at hp ⊢
    exact ⟨hp.1, (everywhere_append ms [q]).2 ⟨hp.2.1, inner⟩, hp.2.2⟩

theorem Imports.named {drawn : List PropertyId} {cs : List Candidate}
    {report report' : ImportReport} (h : Imports target drawn cs t report t' report')
    (named : Everywhere Named t.roots) : Everywhere Named t'.roots := by
  induction h with
  | done t report => exact named
  | skip obstacle _ ih => exact ih named
  | @take c cs t placed next t' report report' s free ids place same _ ih =>
    refine ih (same ▸ named_place? place named ?_)
    exact c.everywhere_shaped (P := Named) (fun d e carries => carries) _ _ _

theorem Change.named {e : Edit} (h : Change t s s' e t') (named : Everywhere Named t.roots)
    (unsplit : ¬ e.SplitsName t) : Everywhere Named t'.roots := by
  cases h with
  | add container place => exact named_place? place named (named_fresh _ _ _)
  | delete isGone splice => exact splice.named (by simp) (fun _ => everywhere_nil) named
  | @move id dir a b t' splice =>
    refine splice.named (by simp) (fun inner => ?_) named
    rw [← List.singleton_append, everywhere_append] at inner ⊢
    exact inner.symm
  | @update id u p t' found splice =>
    have isTarget : p.id = id := (mem_subtreeOfList_of_find? found).2
    refine splice.everywhere (fun d ms ms' e _ here => here) (fun d ms e e' mem spliced here => ?_)
      (named_patch u) named
    intro q isElement
    obtain ⟨a, was, same | ⟨rfl, same⟩⟩ := spliced.related
      (R := fun a q => q.name = a.name ∨ a = p ∧ q.name = u.name.getD a.name)
      (by simp [name_patch]) (fun a q same => .inl (congrArg Declaration.name same.symm)) q
      (Option.mem_toList.2 isElement)
    · exact same.trans (here a (Option.mem_toList.1 was))
    · have isElement : a ∈ e := Option.mem_toList.1 was
      cases renamed : u.name with
      | none => simpa [renamed, here a isElement] using same
      | some name =>
        rw [renamed, Option.getD_some] at same
        by_contra other
        exact unsplit ⟨_, mem, a, isElement, isTarget, name, renamed, same ▸ other⟩
  | @setElement id kind p t' found splice =>
    refine splice.named (by simp [Property.name]) (fun inner => ?_) named
    obtain ⟨d, ms, e⟩ := p
    rw [everywhere_cons] at inner ⊢
    refine ⟨?_, inner.2.1, named_fresh _ _ _, everywhere_nil⟩
    rintro q isElement
    obtain rfl := Option.some.inj isElement
    rfl
  | importInto container walk => exact walk.named named

theorem not_named_of_splitsName {e : Edit} {x : Tree × IdSource} (distinct : x.1.ids.Nodup)
    (splits : e.SplitsName x.1) : ¬ Everywhere Named (e.perform x).1.roots := by
  obtain ⟨t, s⟩ := x
  cases e with
  | update id u =>
    obtain ⟨p, mem, q, element, isTarget, name, renamed, other⟩ := splits
    intro named
    cases modified : modifyInList? id (patch u) t.roots with
    | none =>
      have absent := (findInList?_eq_none_iff id t.roots).1
        ((modifyInList?_eq_none_iff ..).1 modified)
      exact absent (isTarget ▸ id_mem_ids (element_subset mem element))
    | some roots =>
      have after : ((Edit.update id u).perform (t, s)).1.roots = roots := by
        simp [Edit.perform, update?, modify?, modified, advance]
      obtain ⟨ms, left⟩ := element_modifyInList? element isTarget modified distinct mem
      have same := named _ (after ▸ left) _ rfl
      rw [name_patch, renamed, Option.getD_some] at same
      exact other same
  | add | delete | move | setElement | importInto => exact splits.elim

theorem named_unsplitRun {x y : Tree × IdSource} (named : Everywhere Named x.1.roots)
    (run : UnsplitRun x y) : Everywhere Named y.1.roots := by
  induction run with
  | start => exact named
  | @step e y _ fresh unsplit ih =>
    rcases perform_cases e y fresh with same | change
    · rwa [same]
    · exact change.named ih unsplit

/-- A property that is one scalar inside any number of arrays. -/
inductive ArrayOf (leaf : Property) : Property → Prop
  | scalar : leaf.kind.isContainer = false → ArrayOf leaf leaf
  | array {p q : Property} : p.kind = .array → p.element = some q → ArrayOf leaf q →
    ArrayOf leaf p

theorem ArrayOf.leaf {l p : Property} (h : ArrayOf l p) {ps : List Property}
    (named : Everywhere Named ps) (mem : p ∈ subtreeOfList ps) :
    l ∈ subtreeOfList ps ∧ l.kind.isContainer = false ∧ l.name = p.name := by
  induction h with
  | scalar isLeaf => exact ⟨mem, isLeaf, rfl⟩
  | @array p q _ element _ ih =>
    obtain ⟨below, isLeaf, same⟩ := ih (element_subset mem element)
    exact ⟨below, isLeaf, same.trans (named p mem q element)⟩

theorem schema_key {p : Property} {siblings : List Property} (h : p ∈ siblings) (extra : Bool)
    (path : String) :
    ∃ v, (SchemaPass.children extra path [] siblings).1.lookup p.name = some v := by
  rw [SchemaPass.lookup_children, if_neg List.not_mem_nil]
  cases first : siblings.find? fun q => q.name == p.name with
  | some q => exact ⟨_, rfl⟩
  | none => simpa using List.find?_eq_none.1 first p h

theorem context_key (legal : Legal t.roots) {l : Property} (mem : l ∈ subtreeOfList t.roots)
    (isLeaf : l.kind.isContainer = false) (m : Metadata) (n : Namespaces) :
    ∃ v, ((ContextPass.compile t m n).document.get? "@context").bind (·.get? l.name) = some v := by
  have visited := (ContextPass.visitMembers_visited (ContextPass.url m n) n.vocabulary t.roots ""
    []).terms
  have claimed : ContextPass.Claimed (ContextPass.reachedInList t.roots) l.name :=
    .inr ⟨l, by rwa [ContextPass.reachedInList_eq_subtree _ legal], isLeaf, rfl⟩
  have has := (ContextPass.has_table_iff (ContextPass.url m n) n.vocabulary _ _).2 claimed
  rw [List.nil_append] at visited
  rw [← visited] at has
  exact (ContextPass.has_iff _ _).1 has

/-- Through calls none of which gives an element definition another name than its array has, every
element definition has its array's name; the next call keeps this exactly if it is none of those.
An array of scalars is then published under one name, by the schema pass among the properties of
its level and by the context pass as the term of the scalar. -/
theorem element_names {s : IdSource} {y : Tree × IdSource} (run : UnsplitRun (empty, s) y) :
    (∀ p ∈ subtreeOfList y.1.roots, ∀ q ∈ p.element, q.name = p.name) ∧
    (∀ e : Edit, y.2.Fresh (e.perform y).2 y.1.ids →
      ((∀ p ∈ subtreeOfList (e.perform y).1.roots, ∀ q ∈ p.element, q.name = p.name) ↔
        ¬ e.SplitsName y.1)) ∧
    ∀ target, ∀ p ∈ y.1.children target, ∀ l, ArrayOf l p → l.name = p.name ∧
      (∀ extra path, ∃ schema,
        (SchemaPass.children extra path [] (y.1.children target)).1.lookup p.name = some schema) ∧
      ∀ m n, ∃ iri,
        ((ContextPass.compile y.1 m n).document.get? "@context").bind (·.get? l.name) =
          some iri := by
  have named := named_unsplitRun everywhere_nil run
  have wellFormed := wellFormed_empty.run run.run
  refine ⟨named, fun e fresh => ⟨fun kept splits => ?_, fun unsplit => ?_⟩, ?_⟩
  · exact not_named_of_splitsName wellFormed.distinct splits kept
  · exact named_unsplitRun everywhere_nil (run.step e fresh unsplit)
  · intro target p here l arrayOf
    obtain ⟨mem, isLeaf, same⟩ := arrayOf.leaf named (mem_subtree_of_mem_children here)
    exact ⟨same, schema_key here, context_key wellFormed.legal mem isLeaf⟩

/-- A list of texts is renamed and keeps one name; its element definition named by itself parts
from it. -/
theorem element_names_tags :
    let element : PropertyId := ⟨Uuid.numbered 1⟩
    ∃ y, UnsplitRun (empty, ⟨Uuid.numbered, 0⟩) y ∧
      (∀ p ∈ subtreeOfList y.1.roots, ∀ q ∈ p.element, q.name = p.name) ∧
      (y.1.find? element).map Property.name = some "tags" ∧
      ¬ ∀ p ∈ subtreeOfList ((Edit.update element { name := some "b" }).perform y).1.roots,
        ∀ q ∈ p.element, q.name = p.name := by
  intro element
  let list : PropertyId := ⟨Uuid.numbered 0⟩
  have added := UnsplitRun.step (.add none) (.start (x := (empty, ⟨Uuid.numbered, 0⟩)))
    (by decide +kernel) (by decide +kernel)
  have retyped := added.step (.update list { kind := some .array }) (by decide +kernel)
    (by decide +kernel)
  have given := retyped.step (.setElement list .string) (by decide +kernel) (by decide +kernel)
  have renamed := given.step (.update list { name := some "tags" }) (by decide +kernel)
    (by decide +kernel)
  obtain ⟨named, next, -⟩ := element_names renamed
  refine ⟨_, renamed, named, by decide +kernel, fun kept => ?_⟩
  exact (next (.update element { name := some "b" }) (by decide +kernel)).1 kept (by decide +kernel)

/-- An element definition that does not have its array's name, in a tree that a run reaches. -/
theorem exists_run_element_name_ne :
    ∃ y, Run (empty, ⟨Uuid.numbered, 0⟩) y ∧
      ∃ p ∈ subtreeOfList y.1.roots, ∃ q ∈ p.element, p.kind = .array ∧ q.name ≠ p.name := by
  let list : PropertyId := ⟨Uuid.numbered 0⟩
  let element : PropertyId := ⟨Uuid.numbered 1⟩
  have added := Run.step (.add none) (.start (x := (empty, ⟨Uuid.numbered, 0⟩)))
    (by decide +kernel)
  have retyped := added.step (.update list { name := some "a", kind := some .array })
    (by decide +kernel)
  have given := retyped.step (.setElement list .string) (by decide +kernel)
  have renamed := given.step (.update element { name := some "b" }) (by decide +kernel)
  exact ⟨_, renamed, by decide +kernel⟩

end CredentialSchema.Tree

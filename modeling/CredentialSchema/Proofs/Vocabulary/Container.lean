import CredentialSchema.Proofs.Property.Container
import CredentialSchema.Proofs.Vocabulary.Import

/-!
Containers: the top level and the objects, each with the children that an import goes through.
A container accepts every property, which becomes its last child, and is a container still.
Into anything else an import draws nothing and changes nothing.
-/
namespace CredentialSchema.Tree

open Property hiding id

/-- The tree with one more child in a container. -/
def place? (t : Tree) (target : Option PropertyId) (q : Property) : Option Tree :=
  match target with
  | none => some (t.advance (t.roots ++ [q]))
  | some id => t.modify? id (withMember q)

def Accepts (t : Tree) : Option PropertyId → Prop
  | none => True
  | some id => ∃ p, t.find? id = some p ∧ p.kind = .object

variable {t t' : Tree} {target : Option PropertyId}

theorem children_congr (roots : t'.roots = t.roots) (target : Option PropertyId) :
    t'.children target = t.children target := by
  cases target <;> simp [children, find?, roots]

theorem Accepts.congr (h : t.Accepts target) (roots : t'.roots = t.roots) : t'.Accepts target := by
  cases target with
  | none => trivial
  | some id =>
    obtain ⟨p, found, isObject⟩ := h
    exact ⟨p, by rwa [find?, roots], isObject⟩

theorem importInto_of_accepts (h : t.Accepts target) (cs : List Candidate) (s : IdSource) :
    t.importInto target cs s =
      ((importEach target cs t s {}).1.map some, (importEach target cs t s {}).2) := by
  cases target with
  | none => rfl
  | some id =>
    obtain ⟨p, found, isObject⟩ := h
    simp [importInto, found, isObject]

theorem importInto_of_not_accepts (closed : ¬ t.Accepts target) (cs : List Candidate)
    (s : IdSource) : (t.importInto target cs s).2 = (t, s) ∧
      ∀ report, (t.importInto target cs s).1 ≠ .ok (some report) := by
  cases target with
  | none => exact absurd trivial closed
  | some id =>
    cases found : t.find? id with
    | none => simp [importInto, found]
    | some p =>
      have other : p.kind ≠ .object := fun isObject => closed ⟨p, found, isObject⟩
      simp [importInto, found, other]

section Import

variable {cs : List Candidate} {s s' : IdSource} {report : ImportReport}

theorem import?_of_importEach (container : t.Accepts target)
    (h : importEach target cs t s {} = (.ok report, t', s')) :
    t.import? target cs s = .ok (some (t', s', report)) := by
  rw [import?, importInto_of_accepts container, h]
  rfl

theorem importInto_of_import? (h : t.import? target cs s = .ok (some (t', s', report))) :
    t.importInto target cs s = (.ok (some report), t', s') := by
  rw [import?] at h
  generalize t.importInto target cs s = left at h ⊢
  obtain ⟨v | _ | done, left, source⟩ := left <;> cases h
  rfl

theorem accepts_of_import? (h : t.import? target cs s = .ok (some (t', s', report))) :
    t.Accepts target := by
  by_contra closed
  have into := importInto_of_import? h
  exact (importInto_of_not_accepts closed cs s).2 report (by rw [into])

theorem importEach_of_import? (h : t.import? target cs s = .ok (some (t', s', report))) :
    importEach target cs t s {} = (.ok report, t', s') := by
  have into := importInto_of_import? h
  rw [importInto_of_accepts (accepts_of_import? h)] at into
  generalize importEach target cs t s {} = left at into ⊢
  obtain ⟨v | done, left, source⟩ := left <;> cases into
  rfl

theorem import?_sound (h : t.import? target cs s = .ok (some (t', s', report))) :
    Sound (t, s) (t', s') :=
  importEach_sound (importEach_of_import? h)

end Import

theorem add_of_accepts (h : t.Accepts target) (fresh : PropertyId) :
    t.add fresh target = .ok ((t.place? target (.fresh fresh .string "")).map (fresh, ·)) := by
  cases target with
  | none => rfl
  | some id =>
    obtain ⟨p, found, isObject⟩ := h
    simp only [add, found, isObject, if_true]
    rfl

theorem place?_gap (h : t.Accepts target) :
    ∃ forest, (∀ q, t.place? target q = some (t.advance (forest q))) ∧
      ∀ id ∉ t.ids, Reaches forest id := by
  cases target with
  | none => exact ⟨fun q => t.roots ++ [q], fun _ => rfl, fun id absent => reaches_append absent []⟩
  | some id =>
    obtain ⟨p, found, -⟩ := h
    obtain ⟨forest, modified, reaches⟩ := modifyInList?_withMember found
    exact ⟨forest, fun q => by simp [place?, modify?, modified], reaches⟩

theorem find?_of_place? {id : PropertyId} {p q : Property} (found : t.find? id = some p)
    (h : t.place? (some id) q = some t') : t'.find? id = some (withMember q p) := by
  obtain ⟨roots, modified, rfl⟩ := Option.map_eq_some_iff.1 h
  exact findInList?_modifyInList? (id_withMember q) modified found

theorem children_place? {q : Property} (h : t.place? target q = some t') :
    t'.children target = t.children target ++ [q] := by
  cases target with
  | none =>
    obtain rfl := Option.some.inj h
    rfl
  | some id =>
    obtain ⟨p, found, -⟩ := modify?_splice h
    simp [children, found, find?_of_place? found h, withMember]

theorem Accepts.place? {q : Property} (h : t.Accepts target)
    (placed : t.place? target q = some t') : t'.Accepts target := by
  cases target with
  | none => trivial
  | some id =>
    obtain ⟨p, found, isObject⟩ := h
    exact ⟨_, find?_of_place? found placed, isObject⟩

theorem mem_subtree_of_mem_children {p : Property} (h : p ∈ t.children target) :
    p ∈ subtreeOfList t.roots := by
  cases target with
  | none => exact mem_subtreeOfList.2 ⟨p, h, mem_subtree_self p⟩
  | some id =>
    cases found : t.find? id with
    | none => simp [Tree.children, found] at h
    | some r =>
      simp only [Tree.children, found, Option.map_some, Option.getD_some] at h
      exact members_subset (mem_subtreeOfList_of_find? found).1 h

theorem accepts_of_mem_children (legal : Legal t.roots) {p : Property}
    (h : p ∈ t.children target) : t.Accepts target := by
  cases target with
  | none => trivial
  | some id =>
    cases found : t.find? id with
    | none => simp [Tree.children, found] at h
    | some r =>
      simp only [Tree.children, found, Option.map_some, Option.getD_some] at h
      exact ⟨r, found, (legal r (mem_subtreeOfList_of_find? found).1).1 (List.ne_nil_of_mem h)⟩

end CredentialSchema.Tree

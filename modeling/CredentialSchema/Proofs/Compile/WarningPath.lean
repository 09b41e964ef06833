import CredentialSchema.Compile.Context
import CredentialSchema.Proofs.Compile.Sites
import CredentialSchema.Proofs.Property.Path

/-!
Where the warnings are. Both passes write the path of a warning on the way down, and the walk for
the identifier of a property goes the same way, so the steps that the two have in common are stated
once, as a `Descent`. The path that is written is the dotted one of these steps, except that names
at the beginning are lost: a path that is empty so far is taken for the top level, also if it is
that of a property without a name.
-/
namespace CredentialSchema

open SchemaPass (Step)

namespace SchemaPass.Step

def extend (path : String) : Step → String
  | .member name => Warning.childPath path name
  | .element => Warning.elementPath path

def first : Step → String
  | .member name => name
  | .element => "[]"

def next : Step → String
  | .member name => "." ++ name
  | .element => "[]"

def nexts : List Step → String
  | [] => ""
  | s :: ss => s.next ++ nexts ss

/-- The dotted path of some steps: names with dots between them, and brackets for an element
definition. -/
def dotted : List Step → String
  | [] => ""
  | s :: ss => s.first ++ nexts ss

/-- The steps that a warning shows: those before the first name, as far as members go, are lost. -/
def shown : List Step → List Step
  | .member first :: .member name :: ss =>
    if first = "" then shown (.member name :: ss) else .member first :: .member name :: ss
  | ss => ss

theorem foldl_extend {path : String} (some : path ≠ "") (ss : List Step) :
    ss.foldl extend path = path ++ nexts ss := by
  induction ss generalizing path with
  | nil => simp [nexts]
  | cons s ss ih =>
    have step : extend path s = path ++ s.next := by
      cases s with
      | member name => simp [extend, Warning.childPath, next, some, String.append_assoc]
      | element => rfl
    have more : extend path s ≠ "" := by
      rw [step]
      simp [some]
    rw [List.foldl_cons, ih more, step, nexts, String.append_assoc]

theorem foldl_extend_empty (name : String) (ss : List Step) :
    (.member name :: ss).foldl extend "" = dotted (shown (.member name :: ss)) := by
  induction ss generalizing name with
  | nil => simp [extend, Warning.childPath, shown, dotted, first, nexts]
  | cons s ss ih =>
    by_cases unnamed : name = ""
    · subst unnamed
      cases s with
      | member name => rw [shown, if_pos rfl, ← ih name]; rfl
      | element =>
        change ss.foldl extend ("" ++ "[]") = "" ++ ("[]" ++ nexts ss)
        rw [foldl_extend (by decide), String.append_assoc]
    · have rest := foldl_extend unnamed (s :: ss)
      have kept : shown (.member name :: s :: ss) = .member name :: s :: ss := by
        cases s with
        | member other => rw [shown, if_neg unnamed]
        | element => rfl
      rw [kept]
      exact rest

theorem dotted_unnamed (name : String) (ss : List Step) :
    dotted (.member "" :: .member name :: ss) = "." ++ dotted (.member name :: ss) := by
  simp [dotted, first, nexts, next, String.append_assoc]

theorem length_dotted_shown (ss : List Step) :
    (dotted (shown ss)).length ≤ (dotted ss).length := by
  fun_induction shown ss with
  | case1 name ss ih =>
    rw [dotted_unnamed, String.length_append]
    omega
  | case2 => exact le_rfl
  | case3 => exact le_rfl

theorem dotted_shown_eq_iff (ss : List Step) :
    dotted (shown ss) = dotted ss ↔ ¬ ∃ name rest, ss = .member "" :: .member name :: rest := by
  constructor
  · rintro same ⟨name, rest, rfl⟩
    have shorter := length_dotted_shown (.member name :: rest)
    rw [shown, if_pos rfl, dotted_unnamed] at same
    have dot : ".".length = 1 := rfl
    rw [same, String.length_append] at shorter
    omega
  · intro named
    congr 1
    fun_cases shown ss with
    | case1 name ss => exact absurd ⟨name, ss, rfl⟩ named
    | case2 => rfl
    | case3 => rfl

end SchemaPass.Step

namespace Tree

def step (t : Tree) (holder : Option PropertyId) (id : PropertyId) : Step :=
  if ((holder.bind t.find?).bind Property.element).map Property.id = some id then .element
  else .member (((t.find? id).map Property.name).getD "")

/-- The steps from the holder on that some identifiers come to one after the other. -/
def stepsFrom (t : Tree) : Option PropertyId → List PropertyId → List Step
  | _, [] => []
  | holder, id :: trail => t.step holder id :: t.stepsFrom (some id) trail

def steps (t : Tree) (path : List PropertyId) : List Step := t.stepsFrom none path

variable {t : Tree} {p : Property}

theorem step_top (distinct : t.ids.Nodup) (mem : p ∈ t.roots) :
    t.step none p.id = .member p.name := by
  have found : t.find? p.id = some p :=
    Property.findInList?_of_mem distinct (Property.mem_subtreeOfList_of_mem mem)
  simp [step, found]

theorem step_member (distinct : t.ids.Nodup) (mem : p ∈ Property.subtreeOfList t.roots)
    (inner : p.ids.Nodup) {m : Property} (isMember : m ∈ p.members) :
    t.step (some p.id) m.id = .member m.name := by
  have holder : t.find? p.id = some p := Property.findInList?_of_mem distinct mem
  have found : t.find? m.id = some m :=
    Property.findInList?_of_mem distinct (Property.members_subset mem isMember)
  have other : p.element.map Property.id ≠ some m.id := by
    rintro same
    obtain ⟨e, isElement, same⟩ := Option.map_eq_some_iff.1 same
    have apart := ((Property.nodup_ids p).1 inner).2.2.2.2
    refine apart m.id (Property.id_mem_ids (Property.mem_subtreeOfList_of_mem isMember)) ?_
    rw [← same]
    exact Property.id_mem_ids (Property.mem_subtreeOfList_of_mem (by simp [isElement]))
  simp [step, holder, found, other]

theorem step_element (distinct : t.ids.Nodup) (mem : p ∈ Property.subtreeOfList t.roots)
    {e : Property} (isElement : p.element = some e) : t.step (some p.id) e.id = .element := by
  have holder : t.find? p.id = some p := Property.findInList?_of_mem distinct mem
  simp [step, holder, isElement]

end Tree

namespace Property

/-- A way down from a property: the steps, the identifiers that they come to, and where it ends. -/
inductive Descent : Property → List Step → List PropertyId → Property → Prop
  | here (p : Property) : Descent p [] [] p
  | member {p m q : Property} {steps : List Step} {trail : List PropertyId} :
    m ∈ p.members → Descent m steps trail q →
      Descent p (.member m.name :: steps) (m.id :: trail) q
  | element {p e q : Property} {steps : List Step} {trail : List PropertyId} :
    p.element = some e → Descent e steps trail q →
      Descent p (.element :: steps) (e.id :: trail) q

namespace Descent

variable {p q : Property} {steps : List Step} {trail : List PropertyId}

theorem way (h : Descent p steps trail q) {ps : List Property} (mem : p ∈ ps) :
    Way ps (p.id :: trail) q := by
  induction h generalizing ps with
  | here p => exact .stop mem
  | member isMember _ ih => exact .members mem (ih isMember)
  | element isElement _ ih => exact .element mem (ih (Option.mem_toList.2 isElement))

theorem mem_ids (h : Descent p steps trail q) : q.id ∈ p.ids := by
  simpa [idsOfList] using id_mem_ids (h.way (List.mem_singleton_self p)).mem_subtree

theorem path? (h : Descent p steps trail q) (distinct : p.ids.Nodup) :
    path? q.id p = some (p.id :: trail) := by
  have way := h.way (List.mem_singleton_self p)
  simpa [pathInList?] using way.pathInList?_eq (by simpa [idsOfList] using distinct)

theorem stepsFrom {t : Tree} (h : Descent p steps trail q) (whole : t.ids.Nodup)
    (distinct : p.ids.Nodup) (mem : p ∈ subtreeOfList t.roots) :
    t.stepsFrom (some p.id) trail = steps := by
  induction h with
  | here p => rfl
  | @member p m q steps trail isMember below ih =>
    obtain ⟨-, -, apart, -⟩ := (nodup_ids p).1 distinct
    rw [Tree.stepsFrom, Tree.step_member whole mem distinct isMember,
      ih (nodup_ids_of_mem apart isMember) (members_subset mem isMember)]
  | @element p e q steps trail isElement below ih =>
    obtain ⟨-, -, -, apart, -⟩ := (nodup_ids p).1 distinct
    rw [Tree.stepsFrom, Tree.step_element whole mem isElement,
      ih (nodup_ids_of_mem apart (by simp [isElement])) (element_subset mem isElement)]

end Descent

/-- A warning of a property that is come to, along this path, or of one below it. -/
def Warned (path : String) (p : Property) (w : Warning) : Prop :=
  ∃ steps trail q, Descent p steps trail q ∧ w.id = q.id ∧ w.path = steps.foldl Step.extend path

variable {path : String} {p : Property} {w : Warning}

theorem warned_self (defect : Defect) : Warned path p ⟨p.id, path, defect⟩ :=
  ⟨[], [], p, .here p, rfl, rfl⟩

theorem Warned.member {m : Property} (mem : m ∈ p.members)
    (h : Warned (Warning.childPath path m.name) m w) : Warned path p w := by
  obtain ⟨steps, trail, q, descent, id, path⟩ := h
  exact ⟨_, _, q, descent.member mem, id, path⟩

theorem Warned.element {e : Property} (isElement : p.element = some e)
    (h : Warned (Warning.elementPath path) e w) : Warned path p w := by
  obtain ⟨steps, trail, q, descent, id, path⟩ := h
  exact ⟨_, _, q, descent.element isElement, id, path⟩

end Property

namespace SchemaPass

open Property (Warned warned_self)

variable (extra : Bool) {w : Warning}

mutual
theorem warned_property (path : String) : ∀ p : Property,
    w ∈ (property extra path p).2 → Warned path p w
  | ⟨d, ms, e⟩ => by
    intro mem
    rw [property] at mem
    cases kind : d.kind with
    | object =>
      rw [kind] at mem
      obtain ⟨m, isMember, below⟩ := warned_children path [] ms mem
      exact below.member isMember
    | array =>
      rw [kind] at mem
      rcases warned_element path d e mem with ⟨-, rfl⟩ | ⟨q, isElement, below⟩
      · exact warned_self _
      · exact below.element isElement
    | string | integer | number | boolean =>
      rw [kind] at mem
      exact absurd mem List.not_mem_nil

theorem warned_children (path : String) (taken : List String) : ∀ ps : List Property,
    w ∈ (children extra path taken ps).2 →
      ∃ p ∈ ps, Warned (Warning.childPath path p.name) p w
  | [], mem => absurd mem List.not_mem_nil
  | p :: ps, mem => by
    have unnamed (mem : w ∈ if p.name.isEmpty then [Warning.mk p.id (Warning.childPath path p.name)
        .emptyName] else []) : Warned (Warning.childPath path p.name) p w := by
      split at mem
      · rw [List.mem_singleton.1 mem]
        exact warned_self _
      · exact absurd mem List.not_mem_nil
    have later (taken) (mem : w ∈ (children extra path taken ps).2) :
        ∃ q ∈ p :: ps, Warned (Warning.childPath path q.name) q w := by
      obtain ⟨q, listed, below⟩ := warned_children path taken ps mem
      exact ⟨q, List.mem_cons_of_mem p listed, below⟩
    rw [children] at mem
    dsimp only at mem
    split at mem
    · simp only [List.mem_append, List.mem_cons] at mem
      rcases mem with mem | rfl | mem
      · exact ⟨p, List.mem_cons_self, unnamed mem⟩
      · exact ⟨p, List.mem_cons_self, warned_self _⟩
      · exact later taken mem
    · simp only [List.mem_append] at mem
      rcases mem with (mem | mem) | mem
      · exact ⟨p, List.mem_cons_self, unnamed mem⟩
      · exact ⟨p, List.mem_cons_self, warned_property _ p mem⟩
      · exact later _ mem

theorem warned_element (path : String) (array : Declaration) : ∀ e : Option Property,
    w ∈ (element extra path array e).2 →
      (e = none ∧ w = ⟨array.id, path, .missingElement⟩) ∨
        ∃ p, e = some p ∧ Warned (Warning.elementPath path) p w
  | none, mem => .inl ⟨rfl, List.mem_singleton.1 mem⟩
  | some p, mem => .inr ⟨p, rfl, warned_property _ p mem⟩
end

end SchemaPass

namespace ContextPass

open Property (Warned warned_self)

variable (url vocabulary : String) {w : Warning}

theorem eq_of_mem_term {path : String} {terms : Terms} {d : Declaration}
    (mem : w ∈ (term url vocabulary path terms d).2) :
    ∃ defect, w = ⟨d.id, path, defect⟩ := by
  have unnamed (mem : w ∈ if d.name.isEmpty then [Warning.mk d.id path .emptyName] else []) :
      ∃ defect, w = ⟨d.id, path, defect⟩ := by
    split at mem
    · exact ⟨_, List.mem_singleton.1 mem⟩
    · exact absurd mem List.not_mem_nil
  rw [term] at mem
  split at mem
  · rcases List.mem_append.1 mem with mem | mem
    · exact unnamed mem
    · exact ⟨_, List.mem_singleton.1 mem⟩
  · exact unnamed mem

mutual
theorem warned_visit (path : String) (terms : Terms) : ∀ p : Property,
    w ∈ (visit url vocabulary path terms p).2 → Warned path p w
  | ⟨d, ms, e⟩ => by
    intro mem
    rw [visit] at mem
    cases kind : d.kind with
    | object =>
      rw [kind] at mem
      obtain ⟨m, isMember, below⟩ := warned_visitMembers path terms ms mem
      exact below.member isMember
    | array =>
      rw [kind] at mem
      rcases warned_visitElement path terms d e mem with ⟨-, rfl⟩ | ⟨q, isElement, below⟩
      · exact warned_self _
      · exact below.element isElement
    | string | integer | number | boolean =>
      rw [kind] at mem
      obtain ⟨defect, rfl⟩ := eq_of_mem_term url vocabulary mem
      exact warned_self defect

theorem warned_visitMembers (path : String) (terms : Terms) : ∀ ps : List Property,
    w ∈ (visitMembers url vocabulary path terms ps).2 →
      ∃ p ∈ ps, Warned (Warning.childPath path p.name) p w
  | [], mem => absurd mem List.not_mem_nil
  | p :: ps, mem => by
    rcases List.mem_append.1 mem with mem | mem
    · exact ⟨p, List.mem_cons_self, warned_visit _ terms p mem⟩
    · obtain ⟨q, listed, below⟩ := warned_visitMembers path _ ps mem
      exact ⟨q, List.mem_cons_of_mem p listed, below⟩

theorem warned_visitElement (path : String) (terms : Terms) (array : Declaration) :
    ∀ e : Option Property, w ∈ (visitElement url vocabulary path terms array e).2 →
      (e = none ∧ w = ⟨array.id, path, .missingElement⟩) ∨
        ∃ p, e = some p ∧ Warned (Warning.elementPath path) p w
  | none, mem => .inl ⟨rfl, List.mem_singleton.1 mem⟩
  | some p, mem => .inr ⟨p, rfl, warned_visit _ terms p mem⟩
end

end ContextPass

open SchemaPass.Step

/-- A warning of either pass is of a property in the tree. Its path is the dotted one of the steps
that the walk for the property takes, without the names at the beginning that are empty: it is the
dotted path itself, unless the first property has no name and the second is a member of it. -/
theorem path_of_warning {t : Tree} (distinct : t.ids.Nodup) (m : Metadata) (n : Namespaces)
    {w : Warning}
    (mem : w ∈ (SchemaPass.compile t m).warnings ∨ w ∈ (ContextPass.compile t m n).warnings) :
    w.id ∈ t.ids ∧ ∃ trail, t.path? w.id = some trail ∧ w.path = dotted (shown (t.steps trail)) ∧
      (w.path = dotted (t.steps trail) ↔
        ¬ ∃ name rest, t.steps trail = .member "" :: .member name :: rest) := by
  have warned : ∃ p ∈ t.roots, p.Warned (Warning.childPath "" p.name) w := by
    rcases mem with mem | mem
    · exact SchemaPass.warned_children _ "" [] t.roots mem
    · exact ContextPass.warned_visitMembers _ _ "" _ t.roots mem
  obtain ⟨p, isRoot, steps, trail, q, descent, same, path⟩ := warned
  have inner := Property.nodup_ids_of_mem distinct isRoot
  have listed := Property.mem_subtreeOfList_of_mem isRoot
  have found : t.path? w.id = some (p.id :: trail) := by
    rw [same]
    exact Property.pathInList?_of_mem distinct isRoot (descent.path? inner)
  have taken : t.steps (p.id :: trail) = .member p.name :: steps := by
    rw [Tree.steps, Tree.stepsFrom, Tree.step_top distinct isRoot,
      descent.stepsFrom distinct inner listed]
  have written : w.path = dotted (shown (.member p.name :: steps)) := by
    rw [path, ← foldl_extend_empty]
    rfl
  refine ⟨?_, p.id :: trail, found, ?_, ?_⟩
  · rw [same]
    exact Property.mem_idsOfList.2 ⟨p, isRoot, descent.mem_ids⟩
  · rw [taken, written]
  · rw [taken, written, dotted_shown_eq_iff]

theorem path_of_warning_below_name :
    let unnamed : Property := ⟨{ id := ⟨.numbered 2⟩, name := "", kind := .object },
      [⟨{ id := ⟨.numbered 3⟩, name := "tags", kind := .array }, [], none⟩], none⟩
    let home : Property :=
      ⟨{ id := ⟨.numbered 1⟩, name := "home", kind := .object }, [unnamed], none⟩
    let t : Tree := ⟨[home], 0⟩
    let w : Warning := ⟨⟨.numbered 3⟩, "home..tags", .missingElement⟩
    w ∈ (SchemaPass.compile t {}).warnings ∧
      ∃ trail, t.path? w.id = some trail ∧ w.path = dotted (t.steps trail) := by
  intro unnamed home t w
  have mem : w ∈ (SchemaPass.compile t {}).warnings := by decide +kernel
  obtain ⟨-, trail, found, -, exact⟩ := path_of_warning (by decide +kernel) {} {} (.inl mem)
  have ids : t.path? w.id = some [⟨.numbered 1⟩, ⟨.numbered 2⟩, ⟨.numbered 3⟩] := by decide +kernel
  obtain rfl := Option.some.inj (ids.symm.trans found)
  have steps : t.steps [⟨.numbered 1⟩, ⟨.numbered 2⟩, ⟨.numbered 3⟩] =
      [.member "home", .member "", .member "tags"] := by decide +kernel
  exact ⟨mem, _, found, exact.2 (by simp [steps])⟩

/-- The name of an object at the top that has none is lost, with its dot. -/
theorem path_of_warning_unnamed_top :
    ¬ ∀ (t : Tree) (m : Metadata) (w : Warning), t.ids.Nodup →
      w ∈ (SchemaPass.compile t m).warnings →
        ∃ trail, t.path? w.id = some trail ∧ w.path = dotted (t.steps trail) := by
  intro all
  let t : Tree := ⟨[⟨{ id := ⟨.numbered 1⟩, name := "", kind := .object },
    [⟨{ id := ⟨.numbered 2⟩, name := "x", kind := .array }, [], none⟩], none⟩], 0⟩
  obtain ⟨trail, found, path⟩ := all t {} ⟨⟨.numbered 2⟩, "x", .missingElement⟩
    (by decide +kernel) (by decide +kernel)
  have ids : t.path? ⟨.numbered 2⟩ = some [⟨.numbered 1⟩, ⟨.numbered 2⟩] := by decide +kernel
  obtain rfl := Option.some.inj (ids.symm.trans found)
  exact absurd path (by decide +kernel)

end CredentialSchema

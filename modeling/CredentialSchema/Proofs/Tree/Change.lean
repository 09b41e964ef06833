import CredentialSchema.Proofs.Tree.Run
import CredentialSchema.Proofs.Vocabulary.Steps

/-!
What one call changes. `Change` says of each kind of call where it splices the tree and what it
puts there; whatever a call whose draws are new leaves is either what was there or such a change,
so that an invariant of runs takes one argument for each splice. The first of them: a property
stays with the catalogue entry that it has.
-/
namespace CredentialSchema.Tree

open Property hiding id

/-- What a call makes of a tree, for a call that is not refused. -/
inductive Change (t : Tree) (s s' : IdSource) : Edit → Tree → Prop
  | add {parent : Option PropertyId} {t' : Tree} (container : t.Accepts parent)
    (place : t.place? parent (.fresh (s.ahead 0) .string "") = some t') :
    s' = s.advance 1 → Change t s s' (.add parent) t'
  | delete {id : PropertyId} {gone : Property} {t' : Tree} (isGone : gone.id = id)
    (splice : Splice [gone] [] t.roots t'.roots) : Change t s s' (.delete id) t'
  | move {id : PropertyId} {dir : Direction} {a b : Property} {t' : Tree}
    (splice : Splice [a, b] [b, a] t.roots t'.roots) : Change t s s' (.move id dir) t'
  | update {id : PropertyId} {u : Patch} {p : Property} {t' : Tree} (found : t.find? id = some p)
    (splice : Splice [p] [patch u p] t.roots t'.roots) : Change t s s' (.update id u) t'
  | setElement {id : PropertyId} {kind : Kind} {p : Property} {t' : Tree}
    (found : t.find? id = some p)
    (splice : Splice [p] [{ p with element := some (.fresh (s.ahead 0) kind p.name) }]
      t.roots t'.roots) :
    s' = s.advance 1 → Change t s s' (.setElement id kind) t'
  | importInto {target : Option PropertyId} {cs : List Candidate} {t' : Tree}
    {report : ImportReport} (container : t.Accepts target)
    (walk : Imports target (s.drawnUntil s') cs t {} t' report) :
    Change t s s' (.importInto target cs) t'

variable {t t' : Tree} {s s' : IdSource} {target : Option PropertyId}

theorem place?_splice {q : Property} (h : t.place? target q = some t') :
    (target = none ∧ Splice [] [q] t.roots t'.roots) ∨
      ∃ id p, target = some id ∧ t.find? id = some p ∧
        Splice [p] [withMember q p] t.roots t'.roots := by
  cases target with
  | none =>
    obtain rfl := Option.some.inj h
    have spliced := @Splice.here [] [q] t.roots []
    exact .inl ⟨rfl, by simpa [advance] using spliced⟩
  | some id =>
    obtain ⟨p, found, spliced⟩ := modify?_splice h
    exact .inr ⟨id, p, rfl, found, spliced⟩

theorem accepts_of_add {fresh id : PropertyId} {parent : Option PropertyId}
    (h : t.add fresh parent = .ok (some (id, t'))) : t.Accepts parent := by
  rcases add_cases h with ⟨rfl, -⟩ | ⟨holder, p, rfl, found, isObject, -⟩
  · trivial
  · exact ⟨p, found, isObject⟩

theorem place?_of_add {fresh id : PropertyId} {parent : Option PropertyId}
    (h : t.add fresh parent = .ok (some (id, t'))) :
    t.place? parent (.fresh fresh .string "") = some t' := by
  rw [add_of_accepts (accepts_of_add h), Except.ok.injEq, Option.map_eq_some_iff] at h
  obtain ⟨t'', place, same⟩ := h
  rw [place, (Prod.mk.inj same).2]

theorem imports_of_import? {cs : List Candidate} {report : ImportReport}
    (h : t.import? target cs s = .ok (some (t', s', report))) (fresh : s.Fresh s' t.ids) :
    Imports target (s.drawnUntil s') cs t {} t' report :=
  imports_of_importEach (accepts_of_import? h) (importEach_of_import? h) fresh
    (List.Subset.refl _)

/-- A call is refused, and leaves everything, or makes its change. -/
theorem perform_cases (e : Edit) (x : Tree × IdSource)
    (fresh : x.2.Fresh (e.perform x).2 x.1.ids) :
    e.perform x = x ∨ Change x.1 x.2 (e.perform x).2 e (e.perform x).1 := by
  obtain ⟨t, s⟩ := x
  cases e with
  | add parent =>
    rw [Edit.perform]
    split
    · next id t' added => exact .inr (.add (accepts_of_add added) (place?_of_add added) rfl)
    · exact .inl rfl
  | delete id =>
    cases h : t.delete? id with
    | none => simp [Edit.perform, h]
    | some deleted =>
      obtain ⟨⟨gone, roots⟩, removed, rfl⟩ := Option.map_eq_some_iff.1 h
      obtain ⟨isGone, spliced⟩ := removeInList?_splice removed
      rw [Edit.perform, h]
      exact .inr (.delete isGone spliced)
  | move id dir =>
    cases h : t.move? id dir with
    | none => simp [Edit.perform, h]
    | some t' =>
      obtain ⟨roots, ⟨a, b, -, -, spliced⟩, rfl⟩ := move?_cases h
      rw [Edit.perform, h]
      exact .inr (.move spliced)
  | update id u =>
    cases h : t.update? id u with
    | none => simp [Edit.perform, h]
    | some t' =>
      obtain ⟨p, found, spliced⟩ := modify?_splice h
      rw [Edit.perform, h]
      exact .inr (.update found spliced)
  | setElement id kind =>
    rw [Edit.perform]
    split
    · next elementId t' given =>
      obtain ⟨p, found, -, modified⟩ := setElement_cases given
      obtain ⟨r, hr, spliced⟩ := modify?_splice modified
      obtain rfl : p = r := Option.some.inj (found ▸ hr)
      exact .inr (.setElement found spliced rfl)
    · exact .inl rfl
  | importInto target candidates =>
    rw [Edit.perform] at fresh ⊢
    split
    · next t' s' report imported =>
      rw [imported] at fresh
      exact .inr (.importInto (accepts_of_import? imported) (imports_of_import? imported fresh))
    · exact .inl rfl

/-- Whatever has an identifier that was not drawn had it before, from the same entry. -/
def Keeps (ps qs : List Property) (drawn : List PropertyId) : Prop :=
  ∀ stamp ∈ stamps qs, stamp ∈ stamps ps ∨ stamp.1 ∈ drawn

theorem keeps_of_splice {old new ps qs : List Property} {drawn : List PropertyId}
    (h : Splice old new ps qs) (run : Keeps old new drawn) : Keeps ps qs drawn := by
  obtain ⟨before, after, hps, hqs⟩ := h.stamps
  intro stamp mem
  simp only [hps, hqs, List.mem_append] at mem ⊢
  rcases mem with (mem | mem) | mem
  · exact .inl (.inl (.inl mem))
  · exact (run stamp mem).imp_left fun mem => .inl (.inr mem)
  · exact .inl (.inr mem)

theorem keeps_place? {q : Property} {drawn : List PropertyId} (h : t.place? target q = some t')
    (ids : q.ids ⊆ drawn) : Keeps t.roots t'.roots drawn := by
  have isDrawn (stamp) (mem : stamp ∈ stamps [q]) : stamp.1 ∈ drawn := by
    refine ids ?_
    have named := List.mem_map_of_mem (f := Prod.fst) mem
    simpa [idsOfList] using named
  rcases place?_splice h with ⟨-, spliced⟩ | ⟨id, p, -, -, spliced⟩
  · exact keeps_of_splice spliced fun stamp mem => .inr (isDrawn stamp mem)
  · refine keeps_of_splice spliced fun stamp mem => ?_
    obtain ⟨d, ms, e⟩ := p
    simp only [withMember, stamps_cons, stamps_append] at mem ⊢
    have := isDrawn stamp
    grind

theorem Imports.keeps {drawn : List PropertyId} {cs : List Candidate}
    {report report' : ImportReport} (h : Imports target drawn cs t report t' report') :
    Keeps t.roots t'.roots drawn := by
  induction h with
  | done t report => exact fun stamp mem => .inl mem
  | skip obstacle _ ih => exact ih
  | take free ids place same _ ih =>
    intro stamp mem
    rcases ih stamp mem with earlier | isDrawn
    · rw [same] at earlier
      exact keeps_place? place ids stamp earlier
    · exact .inr isDrawn

theorem Change.keeps {e : Edit} (h : Change t s s' e t') :
    Keeps t.roots t'.roots (s.drawnUntil s') := by
  cases h with
  | add container place source =>
    refine keeps_place? place ?_
    simp [Property.fresh, Property.ids, idsOfList, source]
  | delete isGone splice => exact keeps_of_splice splice (by simp [Keeps])
  | @move id dir a b t' splice =>
    refine keeps_of_splice splice fun stamp mem => .inl ?_
    rw [← List.singleton_append, stamps_append, List.mem_append] at mem ⊢
    exact mem.symm
  | @update id u p t' found splice =>
    exact keeps_of_splice splice fun stamp mem => .inl ((stamps_patch_sublist u p).subset mem)
  | @setElement id kind p t' found splice source =>
    refine keeps_of_splice splice fun stamp mem => ?_
    obtain ⟨d, ms, e⟩ := p
    simp only [stamps_cons, Property.fresh, Option.toList_some] at mem ⊢
    rw [source]
    grind [IdSource.drawnUntil_one]
  | importInto container walk => exact walk.keeps

theorem Run.sound {x y : Tree × IdSource} (run : Run x y) : Sound x y := by
  induction run with
  | start => exact .refl x
  | step e _ _ ih => exact ih.trans (perform_sound e _)

theorem Run.keeps {x y : Tree × IdSource} (run : Run x y) :
    Keeps x.1.roots y.1.roots (x.2.drawnUntil y.2) := by
  induction run with
  | start => exact fun stamp mem => .inl mem
  | @step e y run fresh ih =>
    intro stamp mem
    have step : Keeps y.1.roots (e.perform y).1.roots (y.2.drawnUntil (e.perform y).2) := by
      rcases perform_cases e y fresh with same | change
      · rw [same]
        exact fun stamp mem => .inl mem
      · exact change.keeps
    rw [run.sound.drawnUntil_trans (perform_sound e y), List.mem_append]
    rcases step stamp mem with earlier | isDrawn
    · exact (ih stamp earlier).imp_right .inl
    · exact .inr (.inr isDrawn)

theorem source_of_run {x y : Tree × IdSource} (run : Run x y) (distinct : x.1.ids.Nodup)
    {p q : Property} (hp : p ∈ subtreeOfList x.1.roots) (hq : q ∈ subtreeOfList y.1.roots)
    (same : q.id = p.id) (undrawn : p.id ∉ x.2.drawnUntil y.2) :
    q.decl.source = p.decl.source := by
  have stampOf {q : Property} {ps : List Property} (mem : q ∈ subtreeOfList ps) :
      (q.id, q.decl.source) ∈ stamps ps := List.mem_map_of_mem mem
  rcases run.keeps _ (stampOf hq) with earlier | isDrawn
  · have unique := List.inj_on_of_nodup_map (f := Prod.fst) (l := stamps x.1.roots)
      (by rwa [map_fst_stamps]) earlier (stampOf hp) same
    exact (Prod.mk.inj unique).2
  · exact absurd (same ▸ isDrawn) undrawn

end CredentialSchema.Tree

import CredentialSchema.Proofs.Tree.Change

/-!
One property for each catalogue entry and container. The entries recorded in a list of siblings
never repeat: an import looks for a sibling of the same entry first, and every other operation
leaves the entries alone. Since a property also keeps its entry for as long as it is there, what
was imported into a container stands in the way of its entry until it is gone.
-/
namespace CredentialSchema

namespace Property

/-- The catalogue entries recorded in a list of siblings. -/
def entries (ps : List Property) : List String := ps.filterMap (·.decl.source)

@[simp] theorem entries_nil : entries [] = [] := rfl

@[simp] theorem entries_append (ps qs : List Property) :
    entries (ps ++ qs) = entries ps ++ entries qs := List.filterMap_append

@[simp] theorem entries_cons (p : Property) (ps : List Property) :
    entries (p :: ps) = p.decl.source.toList ++ entries ps := by
  cases h : p.decl.source <;> simp [entries, h]

theorem mem_entries {entry : String} {ps : List Property} :
    entry ∈ entries ps ↔ ∃ p ∈ ps, p.decl.source = some entry := List.mem_filterMap

theorem find?_of_entries_nodup {ps : List Property} (distinct : (entries ps).Nodup)
    {p : Property} (here : p ∈ ps) {entry : String} (source : p.decl.source = some entry) :
    ps.find? (fun q => q.decl.source == some entry) = some p := by
  induction ps with
  | nil => simp at here
  | cons q ps ih =>
    rw [entries_cons, List.nodup_append] at distinct
    obtain ⟨-, rest, apart⟩ := distinct
    rcases List.mem_cons.1 here with rfl | below
    · simp [source]
    · have other : q.decl.source ≠ some entry := fun same =>
        apart entry (by simp [same]) entry (mem_entries.2 ⟨p, below, source⟩) rfl
      simp [other, ih rest below]

open List in
theorem Splice.entries_subperm {old new ps qs : List Property} (h : Splice old new ps qs)
    (bound : entries new <+~ entries old) : entries qs <+~ entries ps := by
  cases h with
  | here before after =>
    simp only [entries_append]
    exact ((subperm_append_left _).2 bound).append (Subperm.refl _)
  | inMembers before after d e _ => simpa using Subperm.refl _
  | inElement before after d ms _ => simpa using Subperm.refl _

theorem Splice.entries_nodup {old new ps qs : List Property} (h : Splice old new ps qs)
    (bound : (entries new).Subperm (entries old)) (distinct : (entries ps).Nodup) :
    (entries qs).Nodup := by
  obtain ⟨l, perm, sub⟩ := h.entries_subperm bound
  exact perm.nodup_iff.1 (distinct.sublist sub)

def OnceWithin (p : Property) : Prop := (entries p.members).Nodup

/-- No list of siblings has two properties of one entry, the list itself included. -/
structure Once (ps : List Property) : Prop where
  siblings : (entries ps).Nodup
  within : Everywhere OnceWithin ps

theorem once_nil : Once [] := ⟨by simp, everywhere_nil⟩

theorem Splice.once {old new ps qs : List Property} (h : Splice old new ps qs)
    (bound : (entries new).Subperm (entries old))
    (inner : Everywhere OnceWithin old → Everywhere OnceWithin new) (once : Once ps) :
    Once qs := by
  refine ⟨h.entries_nodup bound once.siblings, h.everywhere ?_ ?_ inner once.within⟩
  · exact fun d ms ms' e spliced distinct => spliced.entries_nodup bound distinct
  · exact fun d ms e e' _ _ distinct => distinct

theorem source_patch (u : Patch) (p : Property) : (patch u p).decl.source = p.decl.source := by
  refine patch_induct (motive := fun q => q.decl.source = p.decl.source) u rfl ?_ ?_ ?_
  · rintro name ⟨d, ms, e⟩ same
    exact same
  · exact fun d q _ _ _ given same => given.trans same
  · rintro kind ⟨d, ms, e⟩ same
    rw [changeKind]
    split <;> exact same

theorem onceWithin_patch (u : Patch) {p : Property} (h : Everywhere OnceWithin [p]) :
    Everywhere OnceWithin [patch u p] := by
  refine everywhere_patch u (fun name d ms e here => here) ?_ h
  rintro d d' ms ms' e e' - (rfl | rfl) - here
  · exact here
  · exact List.nodup_nil

theorem onceWithin_withMember {p q : Property} (h : Everywhere OnceWithin [p])
    (hq : Everywhere OnceWithin [q]) (free : (entries (p.members ++ [q])).Nodup) :
    Everywhere OnceWithin [withMember q p] := by
  obtain ⟨d, ms, e⟩ := p
  rw [withMember]
  rw [everywhere_cons] at h ⊢
  exact ⟨free, (everywhere_append ms [q]).2 ⟨h.2.1, hq⟩, h.2.2⟩

theorem onceWithin_fresh (id : PropertyId) (kind : Kind) (name : String) :
    Everywhere OnceWithin [Property.fresh id kind name] := by
  simp [Property.fresh, everywhere_cons, OnceWithin]

end Property

theorem Candidate.onceWithin_property (c : Candidate) (s : IdSource) :
    Property.Everywhere Property.OnceWithin [c.property s] :=
  c.everywhere_shaped (P := Property.OnceWithin) (fun _ _ _ => List.nodup_nil) _ _ _

namespace Tree

open Property hiding id

variable {t t' : Tree} {s s' : IdSource} {target : Option PropertyId}

theorem once_place? {q : Property} (h : t.place? target q = some t') (once : Once t.roots)
    (inner : Everywhere OnceWithin [q])
    (free : (entries (t.children target ++ [q])).Nodup) : Once t'.roots := by
  rcases place?_splice h with ⟨rfl, -⟩ | ⟨id, p, rfl, found, spliced⟩
  · obtain rfl := Option.some.inj h
    exact ⟨free, (everywhere_append _ _).2 ⟨once.within, inner⟩⟩
  · have children : t.children (some id) = p.members := by simp [Tree.children, found]
    rw [children] at free
    refine spliced.once ?_ (fun hp => onceWithin_withMember hp inner free) once
    simpa [withMember] using List.Subperm.refl _

theorem entries_children_nodup (once : Once t.roots) (target : Option PropertyId) :
    (entries (t.children target)).Nodup := by
  cases target with
  | none => exact once.siblings
  | some id =>
    cases found : t.find? id with
    | none => simp [Tree.children, found]
    | some p =>
      have within := once.within p (mem_subtreeOfList_of_find? found).1
      simpa [Tree.children, found, OnceWithin] using within

theorem Imports.once {drawn : List PropertyId} {cs : List Candidate}
    {report report' : ImportReport} (h : Imports target drawn cs t report t' report')
    (once : Once t.roots) : Once t'.roots := by
  induction h with
  | done t report => exact once
  | skip obstacle _ ih => exact ih once
  | @take c cs t placed next t' report report' s free ids place same _ ih =>
    refine ih (same ▸ once_place? place once (c.onceWithin_property s) ?_)
    have unrecorded : c.id ∉ entries (t.children target) := by
      intro recorded
      obtain ⟨p, here, source⟩ := mem_entries.1 recorded
      have found := find?_of_entries_nodup (entries_children_nodup once target) here source
      simp [Candidate.obstacle?, found] at free
    have distinct := List.Nodup.concat unrecorded (entries_children_nodup once target)
    simpa using distinct

theorem Change.once {e : Edit} (h : Change t s s' e t') (once : Once t.roots) :
    Once t'.roots := by
  cases h with
  | add container place =>
    refine once_place? place once (onceWithin_fresh _ _ _) ?_
    simpa [Property.fresh] using entries_children_nodup once _
  | delete isGone splice => exact splice.once (by simp) (fun _ => everywhere_nil) once
  | @move id dir a b t' splice =>
    refine splice.once ?_ (fun inner => ?_) once
    · simpa using List.perm_append_comm.subperm
    · rw [← List.singleton_append, everywhere_append] at inner ⊢
      exact inner.symm
  | @update id u p t' found splice =>
    refine splice.once ?_ (onceWithin_patch u) once
    simpa [source_patch] using List.Subperm.refl _
  | @setElement id kind p t' found splice =>
    refine splice.once ?_ (fun inner => ?_) once
    · simpa using List.Subperm.refl _
    · obtain ⟨d, ms, e⟩ := p
      rw [everywhere_cons] at inner ⊢
      exact ⟨inner.1, inner.2.1, onceWithin_fresh _ _ _, everywhere_nil⟩
  | importInto container walk => exact walk.once once

theorem once_perform (e : Edit) {x : Tree × IdSource} (once : Once x.1.roots)
    (fresh : x.2.Fresh (e.perform x).2 x.1.ids) : Once (e.perform x).1.roots := by
  rcases perform_cases e x fresh with same | change
  · rwa [same]
  · exact change.once once

theorem once_run {x y : Tree × IdSource} (once : Once x.1.roots) (run : Run x y) :
    Once y.1.roots := by
  induction run with
  | start => exact once
  | step e _ fresh ih => exact once_perform e ih fresh

/-- A child of a container bars an entry: an import into the container goes through, skips every
candidate of the entry for that child, and leaves the child as it is. -/
structure Bars (x : Tree × IdSource) (target : Option PropertyId) (p : Property)
    (entry : String) : Prop where
  goes_through (cs : List Candidate) :
    x.2.Fresh (x.2.advance (cs.map Candidate.draws).sum) x.1.ids →
      ∃ t s report, x.1.import? target cs x.2 = .ok (some (t, s, report)) ∧ x.2.Fresh s x.1.ids
  skips {cs : List Candidate} {t : Tree} {s : IdSource} {report : ImportReport} :
    x.1.import? target cs x.2 = .ok (some (t, s, report)) → x.2.Fresh s x.1.ids →
      report.skipped.filter (·.candidateId == entry) =
          ((cs.filter (·.id == entry)).map fun c => ⟨c.id, c.name, .alreadyImported, p.id⟩) ∧
        p ∈ t.children target

theorem import?_goes_through {x : Tree × IdSource} (container : x.1.Accepts target)
    (cs : List Candidate)
    (fresh : x.2.Fresh (x.2.advance (cs.map Candidate.draws).sum) x.1.ids) :
    ∃ t s report, x.1.import? target cs x.2 = .ok (some (t, s, report)) ∧
      x.2.Fresh s x.1.ids := by
  obtain ⟨t, s, report, imported, first⟩ := importEach_goes_through container {} fresh
  exact ⟨t, s, report, import?_of_importEach container imported, first⟩

theorem bars_of_source {x : Tree × IdSource} (once : Once x.1.roots) (legal : Legal x.1.roots)
    {p : Property} (here : p ∈ x.1.children target) {entry : String}
    (source : p.decl.source = some entry) : Bars x target p entry := by
  have container := accepts_of_mem_children legal here
  refine ⟨import?_goes_through container, fun {cs t s report} imported fresh => ?_⟩
  have walk := imports_of_import? imported fresh
  have present := find?_of_entries_nodup (entries_children_nodup once target) here source
  obtain ⟨added, children, -⟩ := walk.children
  exact ⟨by simpa using walk.skipped present, by simp [children, here]⟩

/-- In a run from the empty tree no siblings ever share a catalogue entry, and what an import has
put into a container bars its entry there for as long as it is among the children, whatever
else has been done to it: under the identifier that the import reported, unless that is drawn
again. -/
theorem one_import_per_entry {s : IdSource} {y : Tree × IdSource} (run : Run (empty, s) y) :
    ((entries y.1.roots).Nodup ∧
      ∀ p ∈ subtreeOfList y.1.roots, (entries p.members).Nodup) ∧
    ∀ target cs t s' report, y.1.import? target cs y.2 = .ok (some (t, s', report)) →
      y.2.Fresh s' y.1.ids →
      ∃ taken, taken.Sublist cs ∧ List.Forall₂ (fun c id =>
        (∃ p ∈ t.children target, p.id = id ∧ p.decl.source = some c.id) ∧
        ∀ z, Run (t, s') z → id ∉ s'.drawnUntil z.2 → ∀ p ∈ z.1.children target, p.id = id →
          Bars z target p c.id) taken report.imported := by
  have once := once_run once_nil run
  refine ⟨⟨once.siblings, once.within⟩, fun target cs t s' report imported fresh => ?_⟩
  have step : (Edit.importInto target cs).perform y = (t, s') := by
    rw [Edit.perform, imported]
  have later : Run (empty, s) (t, s') := step ▸ run.step (.importInto target cs) (step ▸ fresh)
  obtain ⟨added, children, ids, taken, sub, made⟩ := (imports_of_import? imported fresh).children
  refine ⟨taken, sub, ?_⟩
  rw [ids, List.nil_append, List.forall₂_map_right_iff]
  rw [List.forall₂_iff_zip] at made ⊢
  refine ⟨made.1, fun {c q} paired => ?_⟩
  have source := made.2 paired
  have here : q ∈ t.children target := by
    rw [children]
    exact List.mem_append_right _ (List.of_mem_zip paired).2
  refine ⟨⟨q, here, rfl, source⟩, fun z onwards undrawn p present same => ?_⟩
  have both : WellFormed t ∧ WellFormed z.1 ∧ Once z.1.roots := by
    have wellFormed := wellFormed_empty.run later
    exact ⟨wellFormed, wellFormed.run onwards, once_run (once_run once_nil later) onwards⟩
  obtain ⟨before, after, onceAfter⟩ := both
  have kept := source_of_run onwards before.distinct (mem_subtree_of_mem_children here)
    (mem_subtree_of_mem_children present) same undrawn
  exact bars_of_source onceAfter after.legal present (kept.trans source)

/-- A list of dates that is imported under an object and then renamed and made a text still bars
its entry there. -/
theorem one_import_per_entry_renamed :
    let object : PropertyId := ⟨Uuid.numbered 0⟩
    ∃ z, Run (empty, ⟨Uuid.numbered, 0⟩) z ∧ ∃ p ∈ z.1.children (some object),
      p.name = "hired" ∧ p.kind = .string ∧ Bars z (some object) p "vp-dates" := by
  intro object
  let source : IdSource := ⟨Uuid.numbered, 0⟩
  let dates : Candidate := { id := "vp-dates", name := "dates", valueType := "date[]" }
  let y := (Edit.update object { kind := some .object }).perform
    ((Edit.add none).perform (empty, source))
  let after := (Edit.importInto (some object) [dates]).perform y
  let rename : Edit := .update ⟨Uuid.numbered 1⟩ { name := some "hired", kind := some .string }
  have added := Run.step (.add none) (.start (x := (empty, source))) (by decide +kernel)
  have run : Run (empty, source) y := added.step _ (by decide +kernel)
  have ids : (y.1.import? (some object) [dates] y.2).toOption.join.map
      (fun r => r.2.2.imported) = some [⟨Uuid.numbered 1⟩] := by decide +kernel
  have reached : Run (empty, source) after := run.step _ (by decide +kernel)
  have undrawn : ⟨Uuid.numbered 1⟩ ∉ after.2.drawnUntil (rename.perform after).2 := by
    decide +kernel
  have edited : ∃ p ∈ (rename.perform after).1.children (some object),
      p.name = "hired" ∧ p.kind = .string ∧ p.id = ⟨Uuid.numbered 1⟩ := by decide +kernel
  have container : y.1.Accepts (some object) :=
    ⟨{ Property.fresh object .string "" with decl.kind := .object }, by decide +kernel, rfl⟩
  have goes := import?_goes_through (x := y) container [dates] (by decide +kernel)
  obtain ⟨t, s, report, imported, fresh⟩ := goes
  have same : after = (t, s) := by simp only [after, Edit.perform, imported]
  simp only [imported, Except.toOption, Option.join_some, Option.map_some,
    Option.some.injEq] at ids
  obtain ⟨taken, sub, made⟩ := (one_import_per_entry run).2 _ _ _ _ _ imported fresh
  obtain ⟨p, here, name, kind, isImported⟩ := edited
  rw [ids] at made
  obtain ⟨c, rfl⟩ : ∃ c, taken = [c] := List.length_eq_one_iff.1 made.length_eq
  obtain rfl : c = dates := by simpa using sub
  obtain ⟨⟨-, bars⟩, -⟩ := List.forall₂_cons.1 made
  have drawn : after.2 = s := by rw [same]
  exact ⟨_, reached.step rename (by decide +kernel), p, here, name, kind,
    bars _ (same ▸ .step rename .start (by decide +kernel)) (drawn ▸ undrawn) p here isImported⟩

end Tree
end CredentialSchema

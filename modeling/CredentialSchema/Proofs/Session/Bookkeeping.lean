import CredentialSchema.Proofs.Session.Run
import CredentialSchema.Proofs.Tree.Kept

/-!
Selection and expansion over runs of a session. Nothing is selected or expanded that is not in the
tree. A call that is not itself about the selection or the expansion leaves of both what is still
in the tree: imports, additions and moves destroy nothing, a deletion forgets what it takes out,
and a patch or a new element definition forgets whatever the tree has lost.
-/
namespace CredentialSchema.Session

/-- The identifiers that a call draws are new to the tree, and a project that is brought in has
distinct ones. -/
def Command.Admissible : Command → Session → Prop
  | .edit (.add fresh _), s => fresh ∉ s.tree.ids
  | .edit (.setElement fresh _ _), s => fresh ∉ s.tree.ids
  | .replaceProject project, _ => project.tree.ids.Nodup
  | .complete _ cs source, s =>
    source.Fresh (source.advance (cs.map Candidate.draws).sum) s.tree.ids
  | .importFrom _ (.ok cs) source, s =>
    source.Fresh (source.advance (cs.map Candidate.draws).sum) s.tree.ids
  | _, _ => True

/-- The sessions that calls in any order lead to. -/
inductive Reachable (x : Session) : Session → Prop
  | start : Reachable x x
  | call (c : Command) {s : Session} : Reachable x s → c.Admissible s → Reachable x (c.perform s)

def Command.selects : Command → Bool
  | .select _ | .replaceProject _ => true
  | _ => false

def Command.expands (id : PropertyId) : Command → Bool
  | .toggle id' => id' == id
  | .collapseAll | .replaceProject _ => true
  | _ => false

/-- Identifiers are distinct, and nothing is selected or expanded that is not in the tree. -/
structure Tidy (s : Session) : Prop where
  distinct : s.tree.ids.Nodup
  selected : ∀ id ∈ s.selected, id ∈ s.tree.ids
  expanded : ∀ id ∈ s.expanded, id ∈ s.tree.ids

/-- Selected and expanded is what was and is still in the tree. -/
structure Follows (s s' : Session) : Prop where
  selected : s'.selected = s.selected.filter (s'.tree.ids.contains ·)
  expanded : s'.expanded = s.expanded.filter (s'.tree.ids.contains ·)

/-- What was selected or expanded still is, unless the call is about that or has destroyed it. -/
structure Spares (c : Command) (s s' : Session) : Prop where
  selected : ∀ id ∈ s.selected, id ∈ s'.selected ∨ c.selects = true ∨ id ∉ s'.tree.ids
  expanded : ∀ id ∈ s.expanded, id ∈ s'.expanded ∨ c.expands id = true ∨ id ∉ s'.tree.ids

variable {s s' : Session}

theorem Follows.tidy (h : Follows s s') (distinct : s'.tree.ids.Nodup) : Tidy s' := by
  refine ⟨distinct, fun id mem => ?_, fun id mem => ?_⟩
  · rw [h.selected, Option.mem_filter_iff] at mem
    simpa using mem.2
  · rw [h.expanded, List.mem_filter] at mem
    simpa using mem.2

theorem Tidy.follows_forget (h : Tidy s) {t : Tree} {gone : List PropertyId}
    (lost : ∀ id ∈ s.tree.ids, id ∈ gone ↔ id ∉ t.ids) :
    Follows s ((s.withTree t).forget gone) := by
  have same (id : PropertyId) (mem : id ∈ s.tree.ids) :
      (!gone.contains id) = t.ids.contains id := by
    have lost := lost id mem
    by_cases here : id ∈ t.ids <;> simp_all
  constructor
  · change s.selected.filter (fun id => !gone.contains id) = s.selected.filter (t.ids.contains ·)
    cases chosen : s.selected with
    | none => rfl
    | some id => simp only [Option.filter_some, same id (h.selected id chosen)]
  · exact List.filter_congr fun id mem => same id (h.expanded id mem)

theorem Tidy.follows_settle (h : Tidy s) (t : Tree) : Follows s (s.settle t) :=
  h.follows_forget fun id mem => by simp [mem]

theorem Tidy.follows (h : Tidy s) (sub : s.tree.ids ⊆ s'.tree.ids)
    (selected : s'.selected = s.selected) (expanded : s'.expanded = s.expanded) :
    Follows s s' := by
  constructor
  · cases chosen : s.selected with
    | none => rw [selected, chosen, Option.filter_none]
    | some id =>
      have here : id ∈ s'.tree.ids := sub (h.selected id chosen)
      simp [selected, chosen, Option.filter_some, here]
  · have here (id : PropertyId) (mem : id ∈ s.expanded) : s'.tree.ids.contains id = true := by
      simpa using sub (h.expanded id mem)
    rw [expanded, List.filter_eq_self.2 here]

theorem Follows.spares (h : Follows s s') (c : Command) : Spares c s s' := by
  constructor
  · intro id mem
    by_cases here : id ∈ s'.tree.ids
    · exact .inl (by rw [h.selected, Option.mem_filter_iff]; exact ⟨mem, by simpa using here⟩)
    · exact .inr (.inr here)
  · intro id mem
    by_cases here : id ∈ s'.tree.ids
    · exact .inl (by rw [h.expanded, List.mem_filter]; exact ⟨mem, by simpa using here⟩)
    · exact .inr (.inr here)

theorem exists_of_reported {answer : Except Violation (Option (PropertyId × Tree))}
    {f : Tree → Session}
    (h : (answer.map fun r => r.map fun (id, t) => (id, f t)).toOption.join.map Prod.snd =
      some s') : ∃ id t, answer = .ok (some (id, t)) ∧ s' = f t := by
  rcases answer with v | _ | ⟨id, t⟩
  · simp [Except.map, Except.toOption] at h
  · simp [Except.map, Except.toOption] at h
  · exact ⟨id, t, rfl, (Option.some.inj h).symm⟩

/-- What an operation on the tree preserves. -/
theorem Tidy.edit (h : Tidy s) {e : Edit} (admissible : (Command.edit e).Admissible s)
    (performed : e.perform? s = some s') : Follows s s' ∧ s'.tree.ids.Nodup := by
  cases e with
  | add fresh parent =>
    obtain ⟨id, t, added, rfl⟩ := exists_of_reported performed
    exact ⟨h.follows (Tree.ids_subset_add added) rfl rfl,
      Tree.nodup_add h.distinct admissible added⟩
  | delete id =>
    obtain ⟨⟨gone, t⟩, deleted, rfl⟩ := Option.map_eq_some_iff.1 performed
    exact ⟨h.follows_forget (Tree.mem_ids_delete? h.distinct deleted),
      Tree.nodup_of_sound (fun _ => Tree.delete?_sound deleted) h.distinct⟩
  | move id dir =>
    obtain ⟨t, moved, rfl⟩ := Option.map_eq_some_iff.1 performed
    exact ⟨h.follows (Tree.ids_subset_move? moved) rfl rfl,
      Tree.nodup_of_sound (fun _ => Tree.move?_sound moved) h.distinct⟩
  | update id u =>
    obtain ⟨t, updated, rfl⟩ := Option.map_eq_some_iff.1 performed
    exact ⟨h.follows_settle t,
      Tree.nodup_of_sound (fun _ => Tree.update?_sound updated) h.distinct⟩
  | setElement fresh id kind =>
    obtain ⟨elementId, t, given, rfl⟩ := exists_of_reported performed
    exact ⟨h.follows_settle t, Tree.nodup_setElement h.distinct admissible given⟩

theorem Tidy.completed (h : Tidy s) (k : Ticket) {cs : List Candidate} {source : IdSource}
    (fresh : source.Fresh (source.advance (cs.map Candidate.draws).sum) s.tree.ids) :
    let s' := Command.perform (.complete k cs source) s
    Follows s s' ∧ s'.tree.ids.Nodup := by
  have unchanged : Follows s s ∧ s.tree.ids.Nodup :=
    ⟨h.follows (List.Subset.refl _) rfl rfl, h.distinct⟩
  simp only [Command.perform]
  cases current : k.isCurrent s.generation s.tree with
  | false =>
    rw [completeImport_of_not_current current]
    exact unchanged
  | true =>
    rw [completeImport_of_current current]
    rcases imported : s.tree.import? k.target cs source with v | _ | ⟨t, source', report⟩
    · exact unchanged
    · exact unchanged
    · obtain ⟨sub, distinct⟩ := Tree.ids_import? imported fresh
      exact ⟨h.follows sub rfl rfl, distinct h.distinct⟩

theorem tidy_opened {project : Project} (distinct : project.tree.ids.Nodup) {generation : Nat} :
    Tidy ⟨project, none, [], generation⟩ :=
  ⟨distinct, by simp, by simp⟩

theorem Tidy.perform (h : Tidy s) {c : Command} (admissible : c.Admissible s) :
    Tidy (c.perform s) ∧ Spares c s (c.perform s) := by
  have ordinary {s' : Session} (kept : Follows s s' ∧ s'.tree.ids.Nodup) :
      Tidy s' ∧ Spares c s s' := ⟨kept.1.tidy kept.2, kept.1.spares c⟩
  have untouched {s' : Session} (tree : s'.tree = s.tree) (selected : s'.selected = s.selected)
      (expanded : s'.expanded = s.expanded) : Tidy s' ∧ Spares c s s' :=
    ordinary ⟨h.follows (by rw [tree]; exact List.Subset.refl _) selected expanded,
      tree ▸ h.distinct⟩
  cases c with
  | edit e =>
    cases performed : e.perform? s with
    | none =>
      simp only [Command.perform, performed, Option.getD_none]
      exact untouched rfl rfl rfl
    | some s' =>
      simp only [Command.perform, performed, Option.getD_some]
      exact ordinary (h.edit admissible performed)
  | select id =>
    refine ⟨⟨h.distinct, fun id' mem => ?_, h.expanded⟩, fun _ _ => .inr (.inl rfl),
      fun _ mem => .inl mem⟩
    exact Tree.contains_iff.1 (Option.mem_filter_iff.1 mem).2
  | toggle id =>
    simp only [Command.perform, toggle]
    split_ifs with isExpanded here
    · refine ⟨⟨h.distinct, h.selected, fun id' mem => h.expanded id' (List.mem_filter.1 mem).1⟩,
        fun _ mem => .inl mem, fun id' mem => ?_⟩
      by_cases same : id' = id
      · exact .inr (.inl (by simp [Command.expands, same]))
      · exact .inl (List.mem_filter.2 ⟨mem, by simpa using same⟩)
    · refine ⟨⟨h.distinct, h.selected, fun id' mem => ?_⟩, fun _ mem => .inl mem,
        fun _ mem => .inl (List.mem_append_left _ mem)⟩
      rcases List.mem_append.1 mem with old | new
      · exact h.expanded id' old
      · obtain rfl := List.mem_singleton.1 new
        exact Tree.contains_iff (t := s.tree).1 here
    · exact untouched rfl rfl rfl
  | expandAll =>
    refine ⟨⟨h.distinct, h.selected, fun id mem => ?_⟩, fun _ mem => .inl mem,
      fun _ mem => .inl (List.mem_append_left _ mem)⟩
    rcases List.mem_append.1 mem with old | new
    · exact h.expanded id old
    · exact List.mem_of_mem_filter (List.mem_of_mem_filter new)
  | collapseAll =>
    exact ⟨⟨h.distinct, h.selected, by simp [Command.perform, collapseAll]⟩,
      fun _ mem => .inl mem, fun _ _ => .inr (.inl rfl)⟩
  | replaceProject project =>
    exact ⟨tidy_opened admissible, fun _ _ => .inr (.inl rfl), fun _ _ => .inr (.inl rfl)⟩
  | setMetadata _ | begin _ | cancel => exact untouched rfl rfl rfl
  | complete k cs source => exact ordinary (h.completed k admissible)
  | importFrom target fetched source =>
    cases fetched with
    | error cause => exact untouched rfl rfl rfl
    | ok cs =>
      have begun : Tidy (s.beginImport target).2 := ⟨h.distinct, h.selected, h.expanded⟩
      obtain ⟨kept, distinct⟩ := begun.completed (s.beginImport target).1 admissible
      rw [perform_importFrom_ok]
      exact ordinary ⟨⟨kept.selected, kept.expanded⟩, distinct⟩

theorem Reachable.tidy {x : Session} (run : Reachable x s) (h : Tidy x) : Tidy s := by
  induction run with
  | start => exact h
  | call c _ admissible ih => exact (ih.perform admissible).1

/-- No dangling bookkeeping. Whatever calls have been made on a project, only what the tree holds
is selected or expanded, and the next call takes from either no more than it destroys, unless it
is itself about the selection or the expansion. -/
theorem no_dangling_bookkeeping {project : Project} (distinct : project.tree.ids.Nodup)
    (run : Reachable (.start project) s) :
    (∀ id ∈ s.selected, id ∈ s.tree.ids) ∧ (∀ id ∈ s.expanded, id ∈ s.tree.ids) ∧
      ∀ c : Command, c.Admissible s → Spares c s (c.perform s) := by
  have tidy := run.tidy (tidy_opened distinct)
  exact ⟨tidy.selected, tidy.expanded, fun c admissible => (tidy.perform admissible).2⟩

/-- A selected and expanded member is destroyed when its object becomes a string. -/
theorem no_dangling_bookkeeping_retyped :
    ∃ s s' : Session, Reachable (.start (.new ⟨.numbered 0⟩ {})) s ∧
      s' = Command.perform (.edit (.update ⟨.numbered 1⟩ { kind := some .string })) s ∧
      Spares (.edit (.update ⟨.numbered 1⟩ { kind := some .string })) s s' ∧
      (∀ id ∈ s.expanded, id ∈ s.tree.ids) ∧
      s.selected = some ⟨.numbered 2⟩ ∧ s.expanded = [⟨.numbered 1⟩, ⟨.numbered 2⟩] ∧
      s'.selected = none ∧ s'.expanded = [⟨.numbered 1⟩] := by
  have run := ((((((Reachable.start (x := .start (.new ⟨.numbered 0⟩ {}))).call
    (.edit (.add ⟨.numbered 1⟩ none)) (by change _ ∉ _; decide +kernel)).call
    (.edit (.update ⟨.numbered 1⟩ { kind := some .object })) trivial).call
    (.edit (.add ⟨.numbered 2⟩ (some ⟨.numbered 1⟩))) (by change _ ∉ _; decide +kernel)).call
    (.edit (.update ⟨.numbered 2⟩ { kind := some .array })) trivial).call
    .expandAll trivial).call (.select (some ⟨.numbered 2⟩)) trivial
  obtain ⟨-, expanded, spares⟩ := no_dangling_bookkeeping (by decide +kernel) run
  exact ⟨_, _, run, rfl, spares _ trivial, expanded, by decide +kernel, by decide +kernel,
    by decide +kernel, by decide +kernel⟩

end CredentialSchema.Session

import Mathlib.Data.List.Nodup
import CredentialSchema.Proofs.Tree.Operation
import CredentialSchema.Session.Basic

/-!
Runs of one session with several imports in flight. A `Desk` is a session with the tickets that
were issued and not yet spent; a fetch that ends touches neither, so it may end at any time and
the call that matters is the one that spends the ticket. Staleness is decided from two counters.
What makes this right is `Tracks`: until a call supersedes a ticket both counters and the tree
are those of its issue, and from then on one of the counters is ahead of the ticket for good.
-/
namespace CredentialSchema.Session

inductive Edit
  | add (fresh : PropertyId) (parent : Option PropertyId)
  | delete (id : PropertyId)
  | move (id : PropertyId) (dir : Direction)
  | update (id : PropertyId) (u : Patch)
  | setElement (fresh id : PropertyId) (kind : Kind)

def Edit.perform? : Edit → Session → Option Session
  | .add fresh parent, s => (s.add fresh parent).toOption.join.map Prod.snd
  | .delete id, s => s.delete? id
  | .move id dir, s => s.move? id dir
  | .update id u, s => s.update? id u
  | .setElement fresh id kind, s => (s.setElement fresh id kind).toOption.join.map Prod.snd

inductive Command
  | edit (e : Edit)
  | select (id : Option PropertyId)
  | toggle (id : PropertyId)
  | expandAll
  | collapseAll
  | setMetadata (metadata : Metadata)
  | replaceProject (project : Project)
  | begin (target : Option PropertyId)
  | cancel
  | complete (k : Ticket) (candidates : List Candidate) (source : IdSource)
  | importFrom (target : Option PropertyId) (fetched : Except String (List Candidate))
    (source : IdSource)

namespace Command

/-- The session after a call. One that is refused leaves it as it was. -/
def perform : Command → Session → Session
  | .edit e, s => (e.perform? s).getD s
  | .select id, s => s.select id
  | .toggle id, s => s.toggle id
  | .expandAll, s => s.expandAll
  | .collapseAll, s => s.collapseAll
  | .setMetadata metadata, s => s.setMetadata metadata
  | .replaceProject project, s => s.replaceProject project
  | .begin target, s => (s.beginImport target).2
  | .cancel, s => s.cancelImport
  | .complete k candidates source, s =>
    match s.completeImport k candidates source with
    | .ok (_, s', _) => s'
    | .error _ => s
  | .importFrom target fetched source, s =>
    match s.importFrom target fetched source with
    | (.ok (.ok (_, s', _)), _) => s'
    | (_, s') => s'

/-- Whether a call made in this session supersedes the tickets in flight: another import is
begun, imports are cancelled, the project is replaced, or an operation on the tree reports a
change. -/
def supersedes : Command → Session → Bool
  | .edit e, s => (e.perform? s).isSome
  | .replaceProject _, _ | .begin _, _ | .cancel, _ | .importFrom .., _ => true
  | _, _ => false

end Command

/-- Where a session stands towards a ticket that was issued for a tree, once it is known whether
a call has superseded the ticket. -/
inductive Tracks (k : Ticket) (t : Tree) : Bool → Session → Prop
  | current {s : Session} : s.generation = k.generation → s.tree = t → Tracks k t false s
  | superseded {s : Session} :
    k.generation < s.generation ∨ k.generation = s.generation ∧ k.revision < s.tree.revision →
    Tracks k t true s

/-- A session with the tickets in flight. -/
structure Desk where
  session : Session
  tickets : List Ticket

namespace Desk

/-- A call spends the ticket that it completes, which must be in flight. -/
def Allows (d : Desk) : Command → Prop
  | .complete k _ _ => k ∈ d.tickets
  | _ => True

def after (d : Desk) (c : Command) : Desk :=
  ⟨c.perform d.session, match c with
    | .begin target => d.tickets ++ [(d.session.beginImport target).1]
    | .complete k _ _ => d.tickets.erase k
    | _ => d.tickets⟩

/-- The calls of a run, each with the session that it was made in, and where they lead. -/
inductive Run (x : Desk) : List (Command × Session) → Desk → Prop
  | start : Run x [] x
  | call (c : Command) {calls : List (Command × Session)} {y : Desk} : Run x calls y →
    y.Allows c → Run x (calls ++ [(c, y.session)]) (y.after c)

/-- No two tickets have one generation, and none is ahead of the session. -/
structure Ordered (d : Desk) : Prop where
  distinct : (d.tickets.map Ticket.generation).Nodup
  bounded : ∀ k ∈ d.tickets, k.generation ≤ d.session.generation

/-- Whether one of these calls supersedes the tickets that were in flight before them. -/
def superseded (calls : List (Command × Session)) : Bool := calls.any fun c => c.1.supersedes c.2

end Desk

variable {s s' : Session} {k : Ticket}

theorem Edit.perform?_tree {e : Edit} (h : e.perform? s = some s') :
    s'.generation = s.generation ∧ s'.tree.revision = s.tree.revision + 1 := by
  cases e with
  | add fresh parent =>
    cases added : s.tree.add fresh parent with
    | error v => simp [perform?, Session.add, added, Except.map, Except.toOption] at h
    | ok r =>
      cases r with
      | none => simp [perform?, Session.add, added, Except.map, Except.toOption] at h
      | some r =>
        simp only [perform?, Session.add, added, Except.map, Except.toOption, Option.map_some,
          Option.join_some, Option.some.injEq] at h
        exact h ▸ ⟨rfl, Tree.add_revision added⟩
  | delete id =>
    obtain ⟨r, deleted, rfl⟩ := Option.map_eq_some_iff.1 h
    exact ⟨rfl, Tree.delete?_revision deleted⟩
  | move id dir =>
    obtain ⟨t, moved, rfl⟩ := Option.map_eq_some_iff.1 h
    exact ⟨rfl, Tree.move?_revision moved⟩
  | update id u =>
    obtain ⟨t, updated, rfl⟩ := Option.map_eq_some_iff.1 h
    exact ⟨rfl, Tree.modify?_revision updated⟩
  | setElement fresh id kind =>
    cases given : s.tree.setElement fresh id kind with
    | error v => simp [perform?, Session.setElement, given, Except.map, Except.toOption] at h
    | ok r =>
      cases r with
      | none => simp [perform?, Session.setElement, given, Except.map, Except.toOption] at h
      | some r =>
        simp only [perform?, Session.setElement, given, Except.map, Except.toOption,
          Option.map_some, Option.join_some, Option.some.injEq] at h
        exact h ▸ ⟨rfl, Tree.setElement_revision given⟩

theorem completeImport_of_not_current (h : k.isCurrent s.generation s.tree = false)
    (candidates : List Candidate) (source : IdSource) :
    s.completeImport k candidates source = .ok (.stale, s, source) := by
  simp only [completeImport, Ticket.complete, h]
  rfl

theorem completeImport_of_current (h : k.isCurrent s.generation s.tree = true)
    (candidates : List Candidate) (source : IdSource) :
    s.completeImport k candidates source =
      (s.tree.import? k.target candidates source).map fun
        | none => (.targetMissing, s, source)
        | some (t, source, report) => (.applied report, s.withTree t, source) := by
  simp only [completeImport, Ticket.complete, h, if_true]
  rcases s.tree.import? k.target candidates source with v | _ | ⟨t, source', report⟩ <;> rfl

theorem completeImport_ne_stale (h : k.isCurrent s.generation s.tree = true)
    {candidates : List Candidate} {source source' : IdSource} :
    s.completeImport k candidates source ≠ .ok (.stale, s', source') := by
  rw [completeImport_of_current h]
  rcases s.tree.import? k.target candidates source with v | _ | ⟨t, source', report⟩ <;>
    simp [Except.map]

theorem perform_complete_generation (k : Ticket) (candidates : List Candidate)
    (source : IdSource) (s : Session) :
    (Command.perform (.complete k candidates source) s).generation = s.generation := by
  simp only [Command.perform]
  cases current : k.isCurrent s.generation s.tree with
  | false => rw [completeImport_of_not_current current]
  | true =>
    rw [completeImport_of_current current]
    rcases s.tree.import? k.target candidates source with v | _ | ⟨t, source', report⟩ <;> rfl

theorem perform_complete_of_other {k k' : Ticket} (h : s.generation = k.generation)
    (other : k'.generation ≠ k.generation) (candidates : List Candidate) (source : IdSource) :
    Command.perform (.complete k' candidates source) s = s := by
  have notCurrent : k'.isCurrent s.generation s.tree = false := by
    simp [Ticket.isCurrent, h, other]
  rw [Command.perform, completeImport_of_not_current notCurrent]

theorem perform_importFrom_ok (target : Option PropertyId) (candidates : List Candidate)
    (source : IdSource) (s : Session) :
    Command.perform (.importFrom target (.ok candidates) source) s =
      Command.perform (.complete (s.beginImport target).1 candidates source)
        (s.beginImport target).2 := by
  simp only [Command.perform, importFrom, Except.map]
  rcases (s.beginImport target).2.completeImport _ candidates source with v | r <;> rfl

theorem perform_importFrom_generation (target : Option PropertyId)
    (fetched : Except String (List Candidate)) (source : IdSource) (s : Session) :
    (Command.perform (.importFrom target fetched source) s).generation = s.generation + 1 := by
  cases fetched with
  | error cause => rfl
  | ok candidates => rw [perform_importFrom_ok, perform_complete_generation]; rfl

theorem generation_le_perform (c : Command) (s : Session) :
    s.generation ≤ (c.perform s).generation := by
  cases c with
  | edit e =>
    cases performed : e.perform? s with
    | none => simp [Command.perform, performed]
    | some s' =>
      have generation := (Edit.perform?_tree performed).1
      simp only [Command.perform, performed, Option.getD_some]
      omega
  | toggle id => simp only [Command.perform, toggle]; split_ifs <;> exact Nat.le_refl _
  | replaceProject project => exact Nat.le_succ _
  | begin target => exact Nat.le_succ _
  | cancel => exact Nat.le_succ _
  | complete k candidates source =>
    exact Nat.le_of_eq (perform_complete_generation k candidates source s).symm
  | importFrom target fetched source => rw [perform_importFrom_generation]; omega
  | _ => exact Nat.le_refl _

namespace Tracks

variable {t : Tree} {b : Bool}

theorem isCurrent (h : Tracks k t b s) (issued : k.revision = t.revision) :
    k.isCurrent s.generation s.tree = !b := by
  cases h with
  | current generation tree => simp [Ticket.isCurrent, generation, tree, issued]
  | superseded ahead =>
    have behind : ¬ (k.generation = s.generation ∧ k.revision = s.tree.revision) := by omega
    simpa [Ticket.isCurrent] using behind

theorem generation_le (h : Tracks k t b s) : k.generation ≤ s.generation := by
  cases h with
  | current generation tree => omega
  | superseded ahead => omega

theorem renewed (h : Tracks k t b s) (generation : s'.generation = s.generation + 1) :
    Tracks k t (b || true) s' := by
  have old := h.generation_le
  rw [Bool.or_true]
  exact .superseded (.inl (by omega))

theorem edited (h : Tracks k t b s) (issued : k.revision = t.revision)
    (generation : s'.generation = s.generation)
    (revision : s'.tree.revision = s.tree.revision + 1) : Tracks k t (b || true) s' := by
  rw [Bool.or_true]
  refine .superseded ?_
  cases h with
  | current generation' tree =>
    subst tree
    omega
  | superseded ahead => omega

theorem kept (h : Tracks k t b s) (generation : s'.generation = s.generation)
    (tree : s'.tree = s.tree) : Tracks k t (b || false) s' := by
  rw [Bool.or_false]
  cases h with
  | current generation' tree' => exact .current (generation.trans generation') (tree.trans tree')
  | superseded ahead => exact .superseded (by rwa [generation, tree])

theorem completed (h : Tracks k t b s) {k' : Ticket} (other : k'.generation ≠ k.generation)
    (candidates : List Candidate) (source : IdSource) :
    Tracks k t (b || false) (Command.perform (.complete k' candidates source) s) := by
  by_cases same : s.generation = k.generation
  · rw [perform_complete_of_other same other]
    exact h.kept rfl rfl
  · -- Another ticket may be current only when this one is superseded by its generation.
    have old := h.generation_le
    rw [Bool.or_false]
    cases h with
    | current generation tree => exact absurd generation same
    | superseded ahead =>
      refine .superseded (.inl ?_)
      rw [perform_complete_generation]
      omega

theorem perform (h : Tracks k t b s) (issued : k.revision = t.revision) (c : Command)
    (other : ∀ k' candidates source, c = .complete k' candidates source →
      k'.generation ≠ k.generation) : Tracks k t (b || c.supersedes s) (c.perform s) := by
  cases c with
  | edit e =>
    cases performed : e.perform? s with
    | none => simpa [Command.supersedes, Command.perform, performed] using h.kept rfl rfl
    | some s' =>
      obtain ⟨generation, revision⟩ := Edit.perform?_tree performed
      simpa [Command.supersedes, Command.perform, performed] using
        h.edited issued generation revision
  | toggle id =>
    refine h.kept ?_ ?_ <;> simp only [Command.perform, toggle] <;> split_ifs <;> rfl
  | complete k' candidates source => exact h.completed (other k' candidates source rfl) _ _
  | importFrom target fetched source =>
    exact h.renewed (perform_importFrom_generation target fetched source s)
  | select _ | expandAll | collapseAll | setMetadata _ => exact h.kept rfl rfl
  | replaceProject _ | begin _ | cancel => exact h.renewed rfl

end Tracks

namespace Desk

variable {d : Desk}

theorem mem_tickets_of_mem_after {c : Command} {k : Ticket}
    (old : k.generation ≤ d.session.generation) (h : k ∈ (d.after c).tickets) : k ∈ d.tickets := by
  cases c with
  | begin target =>
    rcases List.mem_append.1 h with before | new
    · exact before
    · obtain rfl := List.mem_singleton.1 new
      exact absurd old (Nat.not_succ_le_self _)
  | complete k' candidates source => exact List.mem_of_mem_erase h
  | _ => exact h

theorem Ordered.after (h : d.Ordered) (c : Command) : (d.after c).Ordered := by
  have grown := generation_le_perform c d.session
  cases c with
  | begin target =>
    constructor
    · have new : d.session.generation + 1 ∉ d.tickets.map Ticket.generation := by
        intro mem
        obtain ⟨k, inFlight, generation⟩ := List.mem_map.1 mem
        have bound := h.bounded k inFlight
        omega
      simpa [Desk.after, beginImport, Ticket.issue] using h.distinct.concat new
    · intro k mem
      rcases List.mem_append.1 mem with before | new
      · exact Nat.le_trans (h.bounded k before) grown
      · obtain rfl := List.mem_singleton.1 new
        exact Nat.le_refl _
  | complete k' candidates source =>
    have sub : (d.tickets.erase k').Sublist d.tickets := List.erase_sublist
    refine ⟨h.distinct.sublist (sub.map _), fun k mem => ?_⟩
    exact Nat.le_trans (h.bounded k (sub.subset mem)) grown
  | _ => exact ⟨h.distinct, fun k mem => Nat.le_trans (h.bounded k mem) grown⟩

/-- A ticket that stays in flight is not the one that a call completes, and no other ticket has
its generation. -/
theorem Ordered.completes_other (h : d.Ordered) {c : Command} (allowed : d.Allows c) {k : Ticket}
    (inFlight : k ∈ (d.after c).tickets) (k' : Ticket) (candidates : List Candidate)
    (source : IdSource) (completes : c = .complete k' candidates source) :
    k'.generation ≠ k.generation := by
  subst completes
  have unspent : k ∈ d.tickets.erase k' := inFlight
  have spent : k' ∈ d.tickets := allowed
  obtain ⟨different, mem⟩ := h.distinct.of_map.mem_erase_iff.1 unspent
  intro same
  exact different (List.inj_on_of_nodup_map h.distinct mem spent same.symm)

theorem Ordered.run {d' : Desk} {calls : List (Command × Session)} (h : d.Ordered)
    (run : Run d calls d') : d'.Ordered := by
  induction run with
  | start => exact h
  | call c _ _ ih => exact ih.after c

theorem Run.generation_le {d' : Desk} {calls : List (Command × Session)} (run : Run d calls d') :
    d.session.generation ≤ d'.session.generation := by
  induction run with
  | start => exact Nat.le_refl _
  | call c _ _ ih => exact Nat.le_trans ih (generation_le_perform c _)

theorem Run.tracks {d' : Desk} {calls : List (Command × Session)} {k : Ticket} {t : Tree}
    (run : Run d calls d') (ordered : d.Ordered) (start : Tracks k t false d.session)
    (issued : k.revision = t.revision) (old : k.generation ≤ d.session.generation)
    (inFlight : k ∈ d'.tickets) : Tracks k t (superseded calls) d'.session := by
  induction run with
  | start => exact start
  | @call c calls y before allowed ih =>
    have inFlightBefore := mem_tickets_of_mem_after (Nat.le_trans old before.generation_le) inFlight
    have tracked := (ih inFlightBefore).perform issued c
      ((ordered.run before).completes_other allowed inFlight)
    have split : superseded (calls ++ [(c, y.session)]) =
        (superseded calls || c.supersedes y.session) := by simp [superseded]
    rw [split]
    exact tracked

theorem ordered_start (project : Project) : Ordered ⟨.start project, []⟩ :=
  ⟨List.nodup_nil, nofun⟩

end Desk

theorem importFrom_ne_stale {target : Option PropertyId} {candidates : List Candidate}
    {source source' : IdSource} {o : ImportOutcome}
    (h : (s.importFrom (ε := String) target (.ok candidates) source).1 =
      .ok (.ok (o, s', source'))) : o ≠ .stale := by
  have current : (s.beginImport target).1.isCurrent (s.beginImport target).2.generation
      (s.beginImport target).2.tree = true := by
    simp [beginImport, Ticket.issue, Ticket.isCurrent, tree]
  rintro rfl
  exact completeImport_ne_stale current (Except.ok.inj h)

/-- The last fetch wins. A ticket that is still in flight at the end of a run turns out stale
exactly if a call made since its issue superseded it. Stale candidates change nothing, and any
others are imported into the tree that the ticket was issued for, at its target. An import in
one call is never stale, and if its fetch fails, tree, selection and expansion stay. -/
theorem last_fetch_wins {project : Project} {before since : List (Command × Session)}
    {d d' : Desk} (target : Option PropertyId) (earlier : Desk.Run ⟨.start project, []⟩ before d)
    (later : Desk.Run (d.after (.begin target)) since d')
    (inFlight : (d.session.beginImport target).1 ∈ d'.tickets) (candidates : List Candidate)
    (source : IdSource) :
    let completion := d'.session.completeImport (d.session.beginImport target).1 candidates source
    let stale := ∃ s' source', completion = .ok (.stale, s', source')
    (stale ↔ ∃ c ∈ since, c.1.supersedes c.2) ∧
      (∀ s' source', completion = .ok (.stale, s', source') → s' = d'.session) ∧
      (¬ stale → d'.session.tree = d.session.tree ∧
        completion = (d.session.tree.import? target candidates source).map fun
          | none => (.targetMissing, d'.session, source)
          | some (t, source, report) => (.applied report, d'.session.withTree t, source)) ∧
      (∀ other fetched source' o s' source'',
        (d'.session.importFrom (ε := String) other (.ok fetched) source').1 =
          .ok (.ok (o, s', source'')) → o ≠ .stale) ∧
      ∀ other cause source',
        let failed := Command.perform (.importFrom other (.error cause) source') d'.session
        failed.tree = d'.session.tree ∧ failed.selected = d'.session.selected ∧
          failed.expanded = d'.session.expanded := by
  intro completion stale
  have tracked := later.tracks (((Desk.ordered_start project).run earlier).after _)
    (.current rfl rfl) rfl (Nat.le_refl _) inFlight
  have current := tracked.isCurrent rfl
  have some_iff : Desk.superseded since = true ↔ ∃ c ∈ since, c.1.supersedes c.2 := by
    simp [Desk.superseded]
  have immediate : ∀ other fetched source' o s' source'',
      (d'.session.importFrom (ε := String) other (.ok fetched) source').1 =
        .ok (.ok (o, s', source'')) → o ≠ .stale := fun _ _ _ _ _ _ => importFrom_ne_stale
  have failing : ∀ other cause source',
      let failed := Command.perform (.importFrom other (.error cause) source') d'.session
      failed.tree = d'.session.tree ∧ failed.selected = d'.session.selected ∧
        failed.expanded = d'.session.expanded := fun _ _ _ => ⟨rfl, rfl, rfl⟩
  rw [← some_iff]
  cases h : Desk.superseded since with
  | true =>
    have isStale : completion = .ok (.stale, d'.session, source) :=
      completeImport_of_not_current (by rw [current, h]; rfl) candidates source
    refine ⟨⟨fun _ => rfl, fun _ => ⟨_, _, isStale⟩⟩, ?_, fun other => ?_, immediate, failing⟩
    · intro s' source' same
      rw [isStale] at same
      cases same
      rfl
    · exact absurd ⟨_, _, isStale⟩ other
  | false =>
    have sameTree : d'.session.tree = d.session.tree := by
      rw [h] at tracked
      cases tracked with
      | current _ tree => exact tree
    have applied : completion = (d.session.tree.import? target candidates source).map fun
        | none => (.targetMissing, d'.session, source)
        | some (t, source, report) => (.applied report, d'.session.withTree t, source) := by
      rw [← sameTree]
      exact completeImport_of_current (by rw [current, h]; rfl) candidates source
    have notStale : ¬ stale := by
      rintro ⟨s', source', isStale⟩
      exact completeImport_ne_stale (by rw [current, h]; rfl) isStale
    refine ⟨⟨fun isStale => absurd isStale notStale, nofun⟩, ?_, fun _ => ⟨sameTree, applied⟩,
      immediate, failing⟩
    exact fun s' source' isStale => absurd ⟨s', source', isStale⟩ notStale

theorem last_fetch_wins_second_import_applied :
    ∃ d d' : Desk, ∃ since, Desk.Run (d.after (.begin none)) since d' ∧
      (d.session.beginImport none).1 ∈ d'.tickets ∧ d'.session.tree.size = 2 ∧
      ∃ s' source', d'.session.completeImport (d.session.beginImport none).1 [] ⟨Uuid.numbered, 9⟩ =
        .ok (.stale, s', source') := by
  let source : IdSource := ⟨Uuid.numbered, 0⟩
  let d : Desk := ⟨.start (.new ⟨.numbered 0⟩ {}), []⟩
  let dates : Candidate := { id := "dates", name := "dates", valueType := "date[]" }
  let second : Ticket := ⟨2, 0, none⟩
  have begun := (Desk.Run.start (x := d.after (.begin none))).call (.begin none) trivial
  have inFlight : second ∈ ((d.after (.begin none)).after (.begin none)).tickets := by
    decide +kernel
  have completed := begun.call (.complete second [dates] source) inFlight
  have stale := (last_fetch_wins none .start completed (by decide +kernel) [] ⟨Uuid.numbered, 9⟩).1
  exact ⟨d, _, _, completed, by decide +kernel, by decide +kernel,
    stale.2 ⟨_, List.mem_append_left _ (List.mem_singleton_self _), rfl⟩⟩

end CredentialSchema.Session

import CredentialSchema.Proofs.Document.Reading
import CredentialSchema.Proofs.Project.Stored

/-!
A file that was written is there to be read. Writing opens no folder and closes none, so the path
leads to the same place afterwards, and the place holds what was written. A project file then
loads as the project that was saved, unless it is nested too deep.
-/
namespace CredentialSchema.Files

open Property (Everywhere)

theorem walk_mono {isOpen isOpen' : Place → Bool} (mono : ∀ p, isOpen p = true → isOpen' p = true)
    {ss : List String} {p q : Place} (h : walk isOpen ss p = some q) :
    walk isOpen' ss p = some q := by
  induction ss generalizing p with
  | nil => exact h
  | cons s ss ih =>
    rw [walk] at h ⊢
    split at h
    · next here => rw [if_pos (mono p here), ih h]
    · simp at h

theorem lookup_replace {entries : List (Place × String)} {p : Place} (content : String)
    (there : (entries.lookup p).isSome = true) :
    (entries.map fun e => if e.1 == p then (p, content) else e).lookup p = some content := by
  induction entries with
  | nil => simp at there
  | cons e entries ih =>
    obtain ⟨q, old⟩ := e
    by_cases same : q = p
    · simp [same]
    · have other : (p == q) = false := beq_false_of_ne (Ne.symm same)
      simp only [List.lookup_cons, other] at there
      simpa [same, List.lookup_cons, other] using ih there

theorem lookup_replace_of_ne (entries : List (Place × String)) {p q : Place} (content : String)
    (other : q ≠ p) :
    (entries.map fun e => if e.1 == p then (p, content) else e).lookup q = entries.lookup q := by
  induction entries with
  | nil => rfl
  | cons e entries ih =>
    obtain ⟨r, old⟩ := e
    by_cases same : r = p
    · have off : (q == p) = false := beq_false_of_ne other
      simpa [same, List.lookup_cons, off] using ih
    · have kept : (r == p) = false := beq_false_of_ne same
      simp only [List.map_cons, kept, Bool.false_eq_true, if_false, List.lookup_cons, ih]

variable (f : Files) (p : Place) (content : String)

theorem get?_put : (f.put p content).get? p = some content := by
  rw [put]
  split
  · next there => exact lookup_replace content there
  · next free =>
    have absent : f.entries.lookup p = none := Option.not_isSome_iff_eq_none.1 free
    rw [get?, List.lookup_append, absent]
    simp

theorem get?_put_of_ne {q : Place} (other : q ≠ p) : (f.put p content).get? q = f.get? q := by
  have off : (q == p) = false := beq_false_of_ne other
  rw [put]
  split
  · exact lookup_replace_of_ne f.entries content other
  · rw [get?, List.lookup_append, List.lookup_cons, off]
    exact Option.or_none

theorem isFolder_put (q : Place) (h : f.isFolder q = true) :
    (f.put p content).isFolder q = true := by
  have below (e : Place × String) (mem : e ∈ f.entries) :
      ∃ e' ∈ (f.put p content).entries, e'.1 = e.1 := by
    rw [put]
    split
    · refine ⟨_, List.mem_map_of_mem mem, ?_⟩
      by_cases same : e.1 = p <;> simp [same]
    · exact ⟨e, List.mem_append_left _ mem, rfl⟩
  have folders : (f.put p content).folders = f.folders := by
    rw [put]
    split <;> rfl
  simp only [isFolder, Bool.or_eq_true, List.any_eq_true, folders] at h ⊢
  rcases h with ⟨here | ⟨e, mem, inside⟩⟩ | made
  · exact .inl (.inl here)
  · obtain ⟨e', mem', same⟩ := below e mem
    exact .inl (.inr ⟨e', mem', same ▸ inside⟩)
  · exact .inr made

variable {f} {content}

theorem exists_of_write?_eq_some {f' : Files} {path : String}
    (h : f.write? path content = some f') :
    ∃ p, f'.locate? path = some p ∧ f' = f.put p content := by
  obtain ⟨p, located, written⟩ := Option.bind_eq_some_iff.1 h
  split at written
  · simp at written
  · obtain rfl := Option.some.inj written
    exact ⟨p, walk_mono (f.isFolder_put p content) located, rfl⟩

theorem read?_write? {f' : Files} {path : String} (h : f.write? path content = some f') :
    f'.read? path = some content := by
  obtain ⟨p, located, rfl⟩ := exists_of_write?_eq_some h
  rw [read?, located, Option.bind_some, get?_put]

theorem exists_of_bind_eq_ok {x : Except ε α} {k : α → Except ε β} {b : β}
    (h : x.bind k = .ok b) : ∃ a, x = .ok a ∧ k a = .ok b := by
  cases x with
  | error e => exact absurd h nofun
  | ok a => exact ⟨a, rfl, h⟩

theorem eq_ok_of_mapError_eq_ok {x : Except ε α} {g : ε → ε'} {a : α}
    (h : x.mapError g = .ok a) : x = .ok a := by
  cases x with
  | error e => exact absurd h nofun
  | ok b => exact congrArg Except.ok (Except.ok.inj h)

theorem entries_makeParent {f' : Files} {path : String} (h : f.makeParent path = .ok f') :
    f'.entries = f.entries := by
  rw [makeParent] at h
  split at h
  · rw [← Except.ok.inj h]
  · next parent _ =>
    split at h
    · next made =>
      obtain ⟨p, -, rfl⟩ := Option.map_eq_some_iff.1 made
      rw [← Except.ok.inj h]
      split <;> rfl
    · exact absurd h nofun

theorem write?_of_writeProject {f' : Files} {path : String} {project : Project}
    (h : f.writeProject path project = .ok f') :
    f.write? path ((FileFormat.ofPath path).write project) = some f' := by
  rw [writeProject] at h
  split at h
  · next written => rw [written, Except.ok.inj h]
  · exact absurd h nofun

theorem read?_saveProject {f' : Files} {path : String} {project : Project}
    (h : f.saveProject path project = .ok f') :
    f'.read? path = some ((FileFormat.ofPath path).write project) := by
  obtain ⟨made, -, h⟩ := exists_of_bind_eq_ok h
  exact read?_write? (write?_of_writeProject h)

variable {what path text : String} {read : Document → Option α} {a : α}

theorem load_eq_ok_iff (there : f.read? path = some text) :
    f.load what path read = .ok a ↔ ((FileFormat.ofPath path).read? text).bind read = some a := by
  simp only [load, there]
  cases ((FileFormat.ofPath path).read? text).bind read <;> simp

theorem exists_of_load_eq_ok (h : f.load what path read = .ok a) : ∃ text d,
    f.read? path = some text ∧ (FileFormat.ofPath path).read? text = some d ∧ read d = some a := by
  cases there : f.read? path with
  | none => simp [load, there] at h
  | some text =>
    obtain ⟨d, parsed, loaded⟩ := Option.bind_eq_some_iff.1 ((load_eq_ok_iff there).1 h)
    exact ⟨text, d, rfl, parsed, loaded⟩

theorem exists_of_loadProject_eq_ok {project : Project} (h : f.loadProject path = .ok project) :
    ∃ text d, f.read? path = some text ∧ (FileFormat.ofPath path).read? text = some d ∧
      Project.load d = .ok project := by
  obtain ⟨text, d, there, parsed, loaded⟩ := exists_of_load_eq_ok h
  refine ⟨text, d, there, parsed, ?_⟩
  cases load : Project.load d with
  | error e => simp [load, Except.toOption] at loaded
  | ok q => simpa [load, Except.toOption] using loaded

theorem constrained_of_loadProject {project : Project} {C : Constraints → Prop}
    (part : Constraints.Loaded Document.FromJson C) (json : FileFormat.ofPath path = .json)
    (h : f.loadProject path = .ok project) :
    Everywhere (Property.Constrained C) project.tree.roots := by
  obtain ⟨text, d, -, parsed, loaded⟩ := exists_of_loadProject_eq_ok h
  rw [json] at parsed
  exact Project.constrained_of_load part (Json.fromJson_read? parsed) loaded

theorem loadProject_of_written {project : Project} (json : FileFormat.ofPath path = .json)
    (there : f.read? path = some (FileFormat.write project .json))
    (wellFormed : project.tree.WellFormed)
    (storable : Everywhere Property.Storable project.tree.roots)
    (finite : Everywhere Property.Finite project.tree.roots) :
    (project.toJson.depth ≤ Json.nestingLimit → f.loadProject path = .ok project.reloaded) ∧
      (Json.nestingLimit < project.toJson.depth →
        ∃ causes, f.loadProject path = .error causes) := by
  have reload := Project.load_write wellFormed fun q mem => ⟨storable q mem, finite q mem⟩
  constructor
  · intro fits
    rw [loadProject, load_eq_ok_iff there, json, reload, if_pos fits]
  · intro deep
    rw [if_neg (Nat.not_le_of_lt deep)] at reload
    simp [loadProject, load, there, json, reload]

end CredentialSchema.Files

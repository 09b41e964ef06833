import Mathlib.Data.List.Range
import CredentialSchema.Identifier

/-!
Draws from a source of identifiers. Between two places of a source lies the list of what was
drawn. `Fresh` is what the generator of identifiers is trusted with, and only for the draws that
an operation makes: they differ from one another and from the identifiers taken before.
-/
namespace CredentialSchema.IdSource

/-- The identifiers drawn from one place of a source to a later one. -/
def drawnUntil (s s' : IdSource) : List PropertyId :=
  (List.range (s'.drawn - s.drawn)).map s.ahead

/-- The draws from one place to another are new. -/
structure Fresh (s s' : IdSource) (taken : List PropertyId) : Prop where
  distinct : (s.drawnUntil s').Nodup
  absent : ∀ id ∈ s.drawnUntil s', id ∉ taken

instance (s s' : IdSource) (taken : List PropertyId) : Decidable (s.Fresh s' taken) :=
  decidable_of_iff ((s.drawnUntil s').Nodup ∧ ∀ id ∈ s.drawnUntil s', id ∉ taken)
    ⟨fun h => ⟨h.1, h.2⟩, fun h => ⟨h.distinct, h.absent⟩⟩

@[simp] theorem advance_zero (s : IdSource) : s.advance 0 = s := rfl

@[simp] theorem advance_advance (s : IdSource) (m n : Nat) :
    (s.advance m).advance n = s.advance (m + n) := by
  simp [advance, Nat.add_assoc]

@[simp] theorem ahead_advance (s : IdSource) (m n : Nat) :
    (s.advance m).ahead n = s.ahead (m + n) := by
  simp [advance, ahead, Nat.add_assoc]

theorem drawnUntil_advance (s : IdSource) (n : Nat) :
    s.drawnUntil (s.advance n) = (List.range n).map s.ahead := by
  simp [drawnUntil, advance]

@[simp] theorem drawnUntil_self (s : IdSource) : s.drawnUntil s = [] := by
  simp [drawnUntil]

@[simp] theorem drawnUntil_one (s : IdSource) : s.drawnUntil (s.advance 1) = [s.ahead 0] := by
  simp [drawnUntil_advance]

theorem drawnUntil_append (s : IdSource) (m n : Nat) :
    s.drawnUntil (s.advance (m + n)) =
      s.drawnUntil (s.advance m) ++ (s.advance m).drawnUntil (s.advance (m + n)) := by
  have rest : (s.advance m).drawnUntil (s.advance (m + n)) =
      (List.range n).map (s.advance m).ahead := by
    rw [← advance_advance, drawnUntil_advance]
  rw [rest, drawnUntil_advance, drawnUntil_advance, List.range_add, List.map_append, List.map_map]
  congr 1
  refine List.map_congr_left fun i _ => ?_
  simp

theorem drawnUntil_succ (s : IdSource) (n : Nat) :
    s.drawnUntil (s.advance (n + 1)) =
      s.ahead 0 :: (s.advance 1).drawnUntil (s.advance (n + 1)) := by
  rw [Nat.add_comm, drawnUntil_append, drawnUntil_one, List.singleton_append]

theorem fresh_of_drawn {s s' : IdSource} {n : Nat} (h : s'.drawn = s.drawn + n)
    (distinct : ((List.range n).map s.ahead).Nodup) : s.Fresh s' [] := by
  refine ⟨?_, fun _ _ => List.not_mem_nil⟩
  rwa [drawnUntil, h, Nat.add_sub_cancel_left]

theorem Fresh.split {s : IdSource} {m n : Nat} {taken : List PropertyId}
    (h : s.Fresh (s.advance (m + n)) taken) :
    s.Fresh (s.advance m) taken ∧
      (s.advance m).Fresh (s.advance (m + n)) (s.drawnUntil (s.advance m) ++ taken) := by
  obtain ⟨distinct, absent⟩ := h
  rw [drawnUntil_append] at distinct absent
  obtain ⟨first, second, apart⟩ := List.nodup_append.1 distinct
  refine ⟨⟨first, fun id drawn => absent id (List.mem_append_left _ drawn)⟩, second, ?_⟩
  intro id drawn old
  rcases List.mem_append.1 old with old | old
  · exact apart id old id drawn rfl
  · exact absent id (List.mem_append_right _ drawn) old

theorem Fresh.mono {s s' : IdSource} {taken taken' : List PropertyId} (h : s.Fresh s' taken)
    (sub : taken' ⊆ taken) : s.Fresh s' taken' :=
  ⟨h.distinct, fun id drawn old => h.absent id drawn (sub old)⟩

theorem Fresh.nodup_append {s s' : IdSource} {taken : List PropertyId} (h : s.Fresh s' taken)
    (distinct : taken.Nodup) : (s.drawnUntil s' ++ taken).Nodup := by
  refine List.nodup_append.2 ⟨h.distinct, distinct, fun a drawn b old => ?_⟩
  rintro rfl
  exact h.absent a drawn old

end CredentialSchema.IdSource

import CredentialSchema.Vocabulary.Import

/-!
Tickets for imports whose candidates are fetched while editing goes on. A ticket is current
while no other import was begun and none was cancelled since it was issued, and the tree is
at the revision it had then; only a current ticket is applied, so the last fetch wins.
-/
namespace CredentialSchema

/-- What an import was begun against. Both counters are those of the session at that time, and are
equal to later ones only if nothing was counted since: they have no bound here, and 2 ^ 64 steps are
out of reach where they have 64 bits. -/
structure Ticket where
  generation : Nat
  revision : Nat
  target : Option PropertyId
deriving DecidableEq, Repr

inductive ImportOutcome
  | applied (report : ImportReport)
  /-- The container is no longer there. -/
  | targetMissing
  /-- The ticket is no longer current; nothing was applied. -/
  | stale
deriving DecidableEq, Repr

namespace Ticket

def issue (generation : Nat) (t : Tree) (target : Option PropertyId) : Ticket :=
  ⟨generation, t.revision, target⟩

def isCurrent (k : Ticket) (generation : Nat) (t : Tree) : Bool :=
  k.generation == generation && k.revision == t.revision

def complete (k : Ticket) (generation : Nat) (t : Tree) (candidates : List Candidate)
    (source : IdSource) : Except Violation (ImportOutcome × Tree × IdSource) :=
  if k.isCurrent generation t then
    match t.import? k.target candidates source with
    | .error v => .error v
    | .ok none => .ok (.targetMissing, t, source)
    | .ok (some (t, source, report)) => .ok (.applied report, t, source)
  else .ok (.stale, t, source)

end Ticket
end CredentialSchema

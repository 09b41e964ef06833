import CredentialSchema.Pattern.Automaton
import CredentialSchema.Pattern.Extended

/-!
Which texts are patterns, for the program to run with. The check of schemas takes any answer to that
question and is proved for all of them, so no theorem rests on the one given here, which stands in
for engines that are not part of the library: their grammar is followed, while the room that their
automata take is estimated.

A pattern is plain until it looks around or refers back for the first time, and then all of it is
read in the extended dialect alone; a plain pattern has to be one of the extended dialect too. In a
plain pattern the shorthands for digits and words mean ASCII characters, and in any other all
characters.
-/
namespace CredentialSchema.Pattern

def isMatchable (isNarrow : Bool) (cs : List Char) : Bool :=
  match Extended.read? cs with
  | none => false
  | some (e, references) =>
    e.looksBehindFixed &&
      (e.automata references (2 * cs.length + 2) false).all (Expression.haveAutomaton isNarrow)

def isValid (s : String) : Bool :=
  match Plain.read (s.length + 1) s.toList with
  | (.plain, cs) => isMatchable true cs
  | (.extended, cs) => isMatchable false cs
  | (.invalid, _) => false

end CredentialSchema.Pattern

import CredentialSchema.Text.Digits

/-!
Identifiers: 128-bit UUIDs, one type for properties and one for projects, so that one is
never taken for the other. Fresh identifiers come from an `IdSource`, a sequence and a place
in it; what an operation needs of them is stated as a property of the drawn part.
-/
namespace CredentialSchema

structure Uuid where
  bits : BitVec 128
deriving DecidableEq, Repr, Inhabited

namespace Uuid

/-- Thirty-two hexadecimal digits with hyphens after the 8th, 12th, 16th and 20th. -/
def text (u : Uuid) : String :=
  let ds := Text.hexDigits 32 u.bits.toNat
  .ofList (ds.take 8 ++ '-' :: (ds.drop 8).take 4 ++ '-' :: (ds.drop 12).take 4 ++
    '-' :: (ds.drop 16).take 4 ++ '-' :: ds.drop 20)

def ofSimple? (cs : List Char) : Option Uuid :=
  if cs.length = 32 then (Text.hexadecimal? cs).map fun n => ⟨.ofNat 128 n⟩ else none

def ofHyphenated? (cs : List Char) : Option Uuid :=
  if cs.length = 36 ∧ cs[8]? = some '-' ∧ cs[13]? = some '-' ∧ cs[18]? = some '-' ∧
      cs[23]? = some '-' then
    ofSimple? (cs.take 8 ++ (cs.drop 9).take 4 ++ (cs.drop 14).take 4 ++ (cs.drop 19).take 4 ++
      cs.drop 24)
  else none

/-- Reads the simple form, or the hyphenated one alone, in braces or after `urn:uuid:`; letters
may be in either case. -/
def parse? (s : String) : Option Uuid :=
  let cs := s.toList
  let urn := "urn:uuid:".toList
  if cs.length = 32 then ofSimple? cs
  else if cs.length = 38 ∧ cs.head? = some '\x7b' ∧ cs.getLast? = some '\x7d' then
    ofHyphenated? (cs.drop 1).dropLast
  else if cs.length = 45 ∧ urn.isPrefixOf (cs.map Char.toLower) then
    ofHyphenated? (cs.drop urn.length)
  else ofHyphenated? cs

/-- The UUID of version 4 that carries a number in its free bits. -/
def numbered (n : Nat) : Uuid :=
  ⟨BitVec.ofNat 48 (n >>> 74) ++ 4#4 ++ BitVec.ofNat 12 (n >>> 62) ++ 2#2 ++ BitVec.ofNat 62 n⟩

end Uuid

structure PropertyId where
  uuid : Uuid
deriving DecidableEq, Repr, Inhabited

structure ProjectId where
  uuid : Uuid
deriving DecidableEq, Repr, Inhabited

def PropertyId.text (id : PropertyId) : String := id.uuid.text

def PropertyId.parse? (s : String) : Option PropertyId := (Uuid.parse? s).map .mk

/-- The displayed form of a project's identifier, which names what it identifies. -/
def ProjectId.text (id : ProjectId) : String := "project:" ++ id.uuid.text

structure IdSource where
  sequence : Nat → Uuid
  drawn : Nat

namespace IdSource

def next (s : IdSource) : Uuid := s.sequence s.drawn

def advance (s : IdSource) (count : Nat) : IdSource := { s with drawn := s.drawn + count }

def ahead (s : IdSource) (offset : Nat) : PropertyId := ⟨s.sequence (s.drawn + offset)⟩

end IdSource
end CredentialSchema

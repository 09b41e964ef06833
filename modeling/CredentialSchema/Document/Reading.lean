import CredentialSchema.Document.Plain

/-!
Loading typed values from documents. A record is written as a mapping, where unknown members
are passed over and a known member may not be repeated, or as the sequence of its fields in
order. A field that may be absent may also be null.
-/
namespace CredentialSchema

structure Fields where
  members : List (String × Document)

namespace Document

/-- A string; a plain scalar is its own text. -/
def string? (d : Document) : Option String := d.name?

def bool? : Document → Option Bool
  | .bool b => some b
  | .plain s => Plain.bool? s
  | _ => none

/-- A natural number below a limit; a float is never one, whole or not. -/
def natBelow? (limit : Nat) : Document → Option Nat
  | .number (.integer n) => if 0 ≤ n ∧ n < limit then some n.toNat else none
  | .plain s => (Plain.natural? s).filter (· < limit)
  | _ => none

/-- A numeric bound; an integer is taken as the nearest float. -/
def bound? : Document → Option Bound
  | .number (.integer n) => some (.finite (.ofInt n))
  | .number (.float x) => some (.finite x)
  | .special b => some b
  | .plain s => Plain.bound? s
  | _ => none

def list? (read : Document → Option α) : Document → Option (List α)
  | .sequence ds => ds.mapM read
  | .plain s => if s.isEmpty then some [] else none
  | _ => none

def isAbsent : Document → Bool
  | .null => true
  | .plain s => Plain.isNull s
  | _ => false

def optional? (read : Document → Option α) (d : Document) : Option (Option α) :=
  if d.isAbsent then some none else (read d).map some

/-- A variant by its name, alone or as the name of a single null member. -/
def variant? (byName : String → Option α) : Document → Option α
  | .text s => byName s
  | .plain s => byName s
  | .mapping [(k, .null)] => k.name?.bind byName
  | _ => none

/-- The field that a key tells, by its name or by its place among the fields; a place beyond the
last tells none. -/
def field? (names : List String) : Document → Option (Option String)
  | .text s => some (if names.contains s then some s else none)
  | .plain s => some (if names.contains s then some s else none)
  | .number (.integer n) => if 0 ≤ n then some names[n.toNat]? else none
  | _ => none

def fields? (names : List String) : Document → Option Fields
  | .mapping ms => do
    let told ← ms.mapM fun (k, d) => (field? names k).map (·, d)
    let known := told.filterMap fun (name, d) => name.map (·, d)
    if (known.map (·.1)).Nodup then some ⟨known⟩ else none
  | .sequence ds => if ds.length ≤ names.length then some ⟨names.zip ds⟩ else none
  | .plain s => if s.isEmpty then some ⟨[]⟩ else none
  | _ => none

/-- A member added to an object: a repeated name keeps its place and takes the last value. -/
def setMember (ms : List (String × Json.Value)) (k : String) (v : Json.Value) :
    List (String × Json.Value) :=
  if ms.any (·.1 == k) then ms.map fun m => if m.1 == k then (k, v) else m else ms ++ [(k, v)]

mutual
def toValue? : Document → Option Json.Value
  | .null => some .null
  | .bool b => some (.bool b)
  | .number n => some (.number n)
  | .special _ => some .null
  | .text s => some (.string s)
  | .plain s => match Plain.resolve s with
    | .null => some .null
    | .bool b => some (.bool b)
    | .number n => some (.number n)
    | .special _ => some .null
    | .text s => some (.string s)
    | _ => none
  | .sequence ds => (toItems? ds).map .array
  | .mapping ms => (toMembers? [] ms).map .object
  | .unreadable => none

def toItems? : List Document → Option (List Json.Value)
  | [] => some []
  | d :: ds => do return (← toValue? d) :: (← toItems? ds)

/-- The members of an object from those of a mapping, after the members read before them. -/
def toMembers? (before : List (String × Json.Value)) :
    List (Document × Document) → Option (List (String × Json.Value))
  | [] => some before
  | (k, d) :: ms => do toMembers? (setMember before (← k.name?) (← toValue? d)) ms
end

mutual
/-- The document with every plain scalar replaced by what it stands for; none if some part has
no value. -/
def settle? : Document → Option Document
  | .plain s => match Plain.resolve s with
    | .unreadable => none
    | d => some d
  | .sequence ds => (settleItems? ds).map .sequence
  | .mapping ms => (settleMembers? ms).map .mapping
  | .unreadable => none
  | d => some d

def settleItems? : List Document → Option (List Document)
  | [] => some []
  | d :: ds => do return (← settle? d) :: (← settleItems? ds)

def settleMembers? : List (Document × Document) → Option (List (Document × Document))
  | [] => some []
  | (k, d) :: ms => do return (← settle? k, ← settle? d) :: (← settleMembers? ms)
end

end Document

namespace Fields

def get? (f : Fields) (name : String) : Option Document := f.members.lookup name

def required (f : Fields) (name : String) (read : Document → Option α) : Option α :=
  (f.get? name).bind read

def withDefault (f : Fields) (name : String) (default : α) (read : Document → Option α) :
    Option α :=
  match f.get? name with
  | none => some default
  | some d => read d

def optional (f : Fields) (name : String) (read : Document → Option α) : Option (Option α) :=
  match f.get? name with
  | none => some none
  | some d => d.optional? read

end Fields
end CredentialSchema

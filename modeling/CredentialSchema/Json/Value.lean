import CredentialSchema.Number.Binary64

/-!
JSON values. An object is a list of members in the order they were written; `Distinct` says
that no object holds two members of one name, which every value read from a text satisfies.
-/
namespace CredentialSchema.Json

/-- A JSON number: an integer literal keeps its value, every other literal is binary64. -/
inductive Number
  | integer (n : Int)
  | float (x : Binary64)
deriving DecidableEq, Repr

inductive Value
  | null
  | bool (b : Bool)
  | number (n : Number)
  | string (s : String)
  | array (items : List Value)
  | object (members : List (String × Value))
deriving Repr, Inhabited

namespace Value

mutual
def decEq : (v w : Value) → Decidable (v = w)
  | .null, w => by cases w <;> first | exact isTrue rfl | exact isFalse nofun
  | .bool a, w => by
    cases w
    case bool b => exact decidable_of_iff (a = b) (by simp)
    all_goals exact isFalse nofun
  | .number a, w => by
    cases w
    case number b => exact decidable_of_iff (a = b) (by simp)
    all_goals exact isFalse nofun
  | .string a, w => by
    cases w
    case string b => exact decidable_of_iff (a = b) (by simp)
    all_goals exact isFalse nofun
  | .array vs, w => match w with
    | .array ws => match decEqItems vs ws with
      | isTrue h => isTrue (h ▸ rfl)
      | isFalse h => isFalse fun e => h (by simpa using e)
    | .null | .bool _ | .number _ | .string _ | .object _ => isFalse nofun
  | .object ms, w => match w with
    | .object ns => match decEqMembers ms ns with
      | isTrue h => isTrue (h ▸ rfl)
      | isFalse h => isFalse fun e => h (by simpa using e)
    | .null | .bool _ | .number _ | .string _ | .array _ => isFalse nofun

def decEqItems : (vs ws : List Value) → Decidable (vs = ws)
  | [], [] => isTrue rfl
  | [], _ :: _ => isFalse nofun
  | _ :: _, [] => isFalse nofun
  | v :: vs, w :: ws => match decEq v w, decEqItems vs ws with
    | isTrue h, isTrue h' => isTrue (h ▸ h' ▸ rfl)
    | isFalse h, _ => isFalse fun e => h (List.cons.inj e).1
    | _, isFalse h => isFalse fun e => h (List.cons.inj e).2

def decEqMembers : (ms ns : List (String × Value)) → Decidable (ms = ns)
  | [], [] => isTrue rfl
  | [], _ :: _ => isFalse nofun
  | _ :: _, [] => isFalse nofun
  | (k, v) :: ms, (l, w) :: ns =>
    if hk : k = l then
      match decEq v w, decEqMembers ms ns with
      | isTrue h, isTrue h' => isTrue (hk ▸ h ▸ h' ▸ rfl)
      | isFalse h, _ => isFalse fun e => h (Prod.mk.inj (List.cons.inj e).1).2
      | _, isFalse h => isFalse fun e => h (List.cons.inj e).2
    else isFalse fun e => hk (Prod.mk.inj (List.cons.inj e).1).1
end

instance : DecidableEq Value := decEq

def get? (v : Value) (name : String) : Option Value :=
  match v with
  | .object members => members.lookup name
  | _ => none

def asString? : Value → Option String
  | .string s => some s
  | _ => none

def asObject? : Value → Option (List (String × Value))
  | .object members => some members
  | _ => none

mutual
def Distinct : Value → Prop
  | .array vs => DistinctItems vs
  | .object ms => (ms.map (·.1)).Nodup ∧ DistinctMembers ms
  | _ => True

def DistinctItems : List Value → Prop
  | [] => True
  | v :: vs => Distinct v ∧ DistinctItems vs

def DistinctMembers : List (String × Value) → Prop
  | [] => True
  | (_, v) :: ms => Distinct v ∧ DistinctMembers ms
end

mutual
/-- How many containers enclose the innermost one, itself counted; a scalar has depth zero. -/
def depth : Value → Nat
  | .array vs => depthItems vs + 1
  | .object ms => depthMembers ms + 1
  | _ => 0

def depthItems : List Value → Nat
  | [] => 0
  | v :: vs => max (depth v) (depthItems vs)

def depthMembers : List (String × Value) → Nat
  | [] => 0
  | (_, v) :: ms => max (depth v) (depthMembers ms)
end

mutual
def size : Value → Nat
  | .array vs => sizeItems vs + 1
  | .object ms => sizeMembers ms + 1
  | _ => 1

def sizeItems : List Value → Nat
  | [] => 0
  | v :: vs => size v + sizeItems vs

def sizeMembers : List (String × Value) → Nat
  | [] => 0
  | (_, v) :: ms => size v + sizeMembers ms
end

end Value
end CredentialSchema.Json

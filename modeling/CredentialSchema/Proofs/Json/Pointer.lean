import CredentialSchema.Check.Strictness
import CredentialSchema.Text.Digits

/-!
JSON pointers as RFC 6901 has them. A pointer is a sequence of tokens, each written behind a slash
with its tildes and slashes escaped. So whatever characters the tokens hold, reading gives them
back, and two sequences of tokens are never written alike.
-/
namespace CredentialSchema.Pointer

open Json (Value)
open Strictness (escapeChar escapeSegment)

/-- The token that a segment is written for. A tilde only stands there as part of an escape. -/
def unescape? : List Char → Option (List Char)
  | [] => some []
  | '~' :: '0' :: cs => (unescape? cs).map ('~' :: ·)
  | '~' :: '1' :: cs => (unescape? cs).map ('/' :: ·)
  | '~' :: _ => none
  | c :: cs => (unescape? cs).map (c :: ·)

/-- The tokens of a pointer: none in the empty one, and else one behind each slash. -/
def tokens? (pointer : String) : Option (List String) :=
  match pointer.toList.splitOn '/' with
  | [] :: segments => segments.mapM fun cs => (unescape? cs).map String.ofList
  | _ => none

/-- A place in an array: decimal digits with no zero before others. -/
def index? : List Char → Option Nat
  | ['0'] => some 0
  | '0' :: _ => none
  | cs => Text.decimal? cs

def step? (token : String) : Value → Option Value
  | .object ms => ms.lookup token
  | .array vs => (index? token.toList).bind (vs[·]?)
  | _ => none

theorem step?_of_get? {v w : Value} {name : String} (held : v.get? name = some w) :
    step? name v = some w := by
  cases v <;> simp_all [Value.get?, step?]

def follow? : List String → Value → Option Value
  | [], v => some v
  | t :: ts, v => (step? t v).bind (follow? ts)

def holder? (pointer : String) (v : Value) : Option Value :=
  (tokens? pointer).bind fun ts => follow? ts.dropLast v

def write : List String → String
  | [] => ""
  | t :: ts => "/" ++ escapeSegment t ++ write ts

theorem write_append (ts us : List String) : write (ts ++ us) = write ts ++ write us := by
  induction ts with
  | nil => simp [write]
  | cons t ts ih => simp [write, ih, String.append_assoc]

theorem escapeChar_cases (c : Char) : c = '~' ∧ escapeChar c = ['~', '0'] ∨
    c = '/' ∧ escapeChar c = ['~', '1'] ∨ c ≠ '~' ∧ c ≠ '/' ∧ escapeChar c = [c] := by
  unfold escapeChar
  split <;> simp_all

theorem slash_not_mem_escape (cs : List Char) : '/' ∉ cs.flatMap escapeChar := by
  rw [List.mem_flatMap]
  rintro ⟨c, -, mem⟩
  obtain ⟨-, escaped⟩ | ⟨-, escaped⟩ | ⟨-, other, escaped⟩ := escapeChar_cases c <;>
    simp_all [Eq.comm]

theorem unescape?_escape (cs : List Char) : unescape? (cs.flatMap escapeChar) = some cs := by
  induction cs with
  | nil => rfl
  | cons c cs ih =>
    rw [List.flatMap_cons]
    obtain ⟨rfl, escaped⟩ | ⟨rfl, escaped⟩ | ⟨other, -, escaped⟩ := escapeChar_cases c
    · simp [escaped, unescape?, ih]
    · simp [escaped, unescape?, ih]
    · simp [escaped, unescape?, other, ih]

theorem splitOn_write (cs : List Char) (ts : List String) (first : '/' ∉ cs) :
    (cs ++ (write ts).toList).splitOn '/' = cs :: ts.map fun t => t.toList.flatMap escapeChar := by
  induction ts generalizing cs with
  | nil => simpa [write] using List.splitOn_eq_singleton first
  | cons t ts ih =>
    have text : (write (t :: ts)).toList =
        '/' :: (t.toList.flatMap escapeChar ++ (write ts).toList) := by
      simp [write, escapeSegment]
    rw [text, List.splitOn_append_cons_self_of_not_mem first, ih _ (slash_not_mem_escape _),
      List.map_cons]

theorem tokens?_write (ts : List String) : tokens? (write ts) = some ts := by
  have split := splitOn_write [] ts List.not_mem_nil
  rw [List.nil_append] at split
  rw [tokens?, split]
  simp only [List.mapM_map, Function.comp_def, unescape?_escape, Option.map_some,
    String.ofList_toList]
  exact (List.mapM_pure (m := Option) (f := id)).trans (congrArg some (List.map_id ts))

theorem write_inj {ts us : List String} (same : write ts = write us) : ts = us :=
  Option.some.inj (by rw [← tokens?_write ts, same, tokens?_write])

theorem holder?_write (ts : List String) (token : String) (v : Value) :
    holder? (write (ts ++ [token])) v = follow? ts v := by
  rw [holder?, tokens?_write, Option.bind_some, List.dropLast_concat]

/-- The empty name, an escaped tilde before a digit, and a tilde that escapes nothing. -/
example : tokens? "/a~1b//~01" = some ["a/b", "", "~1"] ∧ tokens? "" = some [] ∧
    tokens? "/~2" = none ∧ tokens? "a" = none := by
  decide

end CredentialSchema.Pointer

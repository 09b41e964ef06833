import Mathlib.Data.String.Basic
import CredentialSchema.Proofs.Json.Listing

/-!
Two orders of names: by the UTF-16 code units of the name itself, as RFC 8785 asks for, and by the
written name with its quotes and escapes, which canonical text goes by. Where two names part, the
closing quote of one, an escape or a pair of surrogates can turn their order around, and
`OutOfOrder` says which names this befalls.
-/
namespace CredentialSchema

/-! ### Codes -/

section Codes

variable {α β : Type}

/-- No codeword begins with another one. -/
structure PrefixFree (code : α → List β) : Prop where
  ne_nil : ∀ a, code a ≠ []
  eq_of_prefix : ∀ {a b}, code a <+: code b → a = b

variable {code : α → List β}

theorem PrefixFree.flatMap_inj (free : PrefixFree code) {as bs : List α}
    (same : as.flatMap code = bs.flatMap code) : as = bs := by
  induction as generalizing bs with
  | nil =>
    cases bs with
    | nil => rfl
    | cons b bs => exact absurd (List.append_eq_nil_iff.1 same.symm).1 (free.ne_nil b)
  | cons a as ih =>
    cases bs with
    | nil => exact absurd (List.append_eq_nil_iff.1 same).1 (free.ne_nil a)
    | cons b bs =>
      rw [List.flatMap_cons, List.flatMap_cons] at same
      have first : a = b := by
        rcases List.prefix_or_prefix_of_prefix (List.prefix_append _ _)
            (same ▸ List.prefix_append _ _) with pre | pre
        · exact (free.eq_of_prefix pre).symm
        · exact free.eq_of_prefix pre
      subst first
      rw [ih (List.append_cancel_left same)]

variable [LinearOrder β]

theorem append_lt_append_left_iff (p x y : List β) : p ++ x < p ++ y ↔ x < y := by
  induction p with
  | nil => rfl
  | cons a p ih => simp [ih]

theorem append_lt_append_iff {p q : List β} (h : ¬ p <+: q) (h' : ¬ q <+: p) (x y : List β) :
    p ++ x < q ++ y ↔ p < q := by
  induction p generalizing q with
  | nil => exact absurd List.nil_prefix h
  | cons a p ih =>
    cases q with
    | nil => exact absurd List.nil_prefix h'
    | cons b q =>
      rw [List.cons_append, List.cons_append, List.cons_lt_cons_iff, List.cons_lt_cons_iff]
      refine or_congr_right (and_congr_right ?_)
      rintro rfl
      rw [List.prefix_cons_inj] at h h'
      exact ih h h'

theorem PrefixFree.append_lt_append_iff (free : PrefixFree code) {a b : α} (other : a ≠ b)
    (x y : List β) : code a ++ x < code b ++ y ↔ code a < code b :=
  CredentialSchema.append_lt_append_iff (fun pre => other (free.eq_of_prefix pre))
    (fun pre => other (free.eq_of_prefix pre).symm) x y

end Codes

namespace Json

open Reader

/-! ### Characters -/

theorem char_lt_iff {c d : Char} : c < d ↔ c.toNat < d.toNat := Iff.rfl

def utf16 (c : Char) : List Nat :=
  if c.toNat < 0x10000 then [c.toNat]
  else [0xD800 + (c.toNat - 0x10000) / 0x400, 0xDC00 + (c.toNat - 0x10000) % 0x400]

theorem utf16_prefixFree : PrefixFree utf16 := by
  constructor
  · intro c
    rw [utf16]
    split <;> simp
  · intro c d pre
    have valid := toNat_valid c
    have valid' := toNat_valid d
    apply Char.toNat_inj.1
    simp only [utf16] at pre
    split_ifs at pre <;> simp [List.cons_prefix_cons] at pre <;> omega

theorem utf16_lt_iff (c d : Char) : utf16 c < utf16 d ↔
    (c.toNat < d.toNat ∧ ¬ (0xE000 ≤ c.toNat ∧ c.toNat < 0x10000 ∧ 0x10000 ≤ d.toNat)) ∨
      (0x10000 ≤ c.toNat ∧ 0xE000 ≤ d.toNat ∧ d.toNat < 0x10000) := by
  have valid := toNat_valid c
  have valid' := toNat_valid d
  simp only [utf16]
  split_ifs <;> simp only [List.cons_lt_cons_iff, List.not_lt_nil, List.nil_lt_cons, and_false,
    and_true, or_false] <;> omega

def isEscaped (c : Char) : Bool := c.toNat < 0x20 || c == '"' || c == '\\'

theorem toNat_le_of_isEscaped {c : Char} (escaped : isEscaped c = true) : c.toNat ≤ 0x5C := by
  simp only [isEscaped, Bool.or_eq_true, decide_eq_true_eq, beq_iff_eq] at escaped
  rcases escaped with (control | rfl) | rfl
  · omega
  · decide
  · decide

theorem escapeChar_of_plain {c : Char} (plain : isEscaped c = false) : escapeChar c = [c] := by
  simp only [isEscaped, Bool.or_eq_false_iff, decide_eq_false_iff_not, beq_eq_false_iff_ne] at plain
  unfold escapeChar
  split <;> simp_all

theorem escapeChar_of_isEscaped {c : Char} (escaped : isEscaped c = true) :
    ∃ cs, escapeChar c = '\\' :: cs := by
  unfold escapeChar
  split
  case h_8 quote backslash newline carriage tab backspace feed =>
    have control : c.toNat < 0x20 := by
      simp only [isEscaped, Bool.or_eq_true, decide_eq_true_eq, beq_iff_eq] at escaped
      exact (escaped.resolve_right backslash).resolve_right quote
    exact ⟨_, by rw [if_pos control]; rfl⟩
  all_goals exact ⟨_, rfl⟩

theorem escapeChar_prefixFree : PrefixFree escapeChar := by
  constructor
  · intro c empty
    have body := stringBody_escapeChar c ['"']
    rw [empty] at body
    simp [stringBody] at body
  · rintro c d ⟨cs, same⟩
    have body := stringBody_escapeChar d ['"']
    rw [← same, List.append_assoc, stringBody_escapeChar] at body
    simp only [stringBody, Option.map_some, Option.map_eq_some_iff] at body
    obtain ⟨⟨units, rest⟩, -, read⟩ := body
    have first := congrArg (fun r => r.1.head?) read
    exact Char.toNat_inj.1 (Option.some.inj first)

theorem escapeChar_lt_iff (c d : Char) : escapeChar d < escapeChar c ↔
    match isEscaped c, isEscaped d with
    | false, false => d.toNat < c.toNat
    | true, false => d.toNat < 0x5C
    | false, true => 0x5C < c.toNat
    | true, true => escapeChar d < escapeChar c := by
  cases escaped : isEscaped c <;> cases escaped' : isEscaped d
  case true.true => rfl
  case false.false =>
    rw [escapeChar_of_plain escaped, escapeChar_of_plain escaped']
    simp [List.cons_lt_cons_iff, char_lt_iff]
  case true.false =>
    obtain ⟨cs, written⟩ := escapeChar_of_isEscaped escaped
    have other : d ≠ '\\' := by
      rintro rfl
      exact absurd escaped' (by decide)
    rw [escapeChar_of_plain escaped', written]
    simp [List.cons_lt_cons_iff, char_lt_iff, other]
  case false.true =>
    obtain ⟨ds, written⟩ := escapeChar_of_isEscaped escaped'
    rw [escapeChar_of_plain escaped, written]
    simp [List.cons_lt_cons_iff, char_lt_iff]

/-- One of two characters comes before the other one by UTF-16 and behind it as it is written: it is
an escape and the other one is below the backslash, it takes two units and the other one is above
them, or both are escapes. -/
inductive Turned (c d : Char) : Prop
  | escape (escaped : isEscaped c = true) (plain : isEscaped d = false) (before : c.toNat < d.toNat)
    (below : d.toNat < 0x5C)
  | pair (two : 0x10000 ≤ c.toNat) (above : 0xE000 ≤ d.toNat) (one : d.toNat < 0x10000)
  | escapes (escaped : isEscaped c = true) (escaped' : isEscaped d = true)
    (before : c.toNat < d.toNat) (behind : escapeChar d < escapeChar c)

theorem turned_iff (c d : Char) : Turned c d ↔ utf16 c < utf16 d ∧ escapeChar d < escapeChar c := by
  have plain_of_lt {c : Char} (above : 0x5C < c.toNat) : isEscaped c = false :=
    Bool.eq_false_iff.2 fun escaped => absurd (toNat_le_of_isEscaped escaped) (by omega)
  rw [utf16_lt_iff, escapeChar_lt_iff]
  constructor
  · rintro (⟨escaped, plain, before, below⟩ | ⟨two, above, one⟩ |
      ⟨escaped, escaped', before, behind⟩)
    · simp only [escaped, plain]
      omega
    · simp only [plain_of_lt (show 0x5C < c.toNat by omega),
        plain_of_lt (show 0x5C < d.toNat by omega)]
      omega
    · have low := toNat_le_of_isEscaped escaped'
      simp only [escaped, escaped']
      exact ⟨.inl ⟨before, by omega⟩, behind⟩
  · rintro ⟨before, behind⟩
    -- Escaped characters are below the surrogates, where UTF-16 goes by code points.
    cases escaped : isEscaped c <;> cases escaped' : isEscaped d <;>
      simp only [escaped, escaped'] at behind
    case false.false => exact .pair (by omega) (by omega) (by omega)
    case false.true =>
      have low := toNat_le_of_isEscaped escaped'
      omega
    case true.false =>
      have low := toNat_le_of_isEscaped escaped
      exact .escape escaped escaped' (by omega) (by omega)
    case true.true =>
      have low := toNat_le_of_isEscaped escaped
      exact .escapes escaped escaped' (by omega) behind

/-! ### Names -/

def units (s : String) : List Nat := s.toList.flatMap utf16

theorem units_inj {k l : String} (same : units k = units l) : k = l :=
  String.toList_inj.1 (utf16_prefixFree.flatMap_inj same)

def conformingLe (k l : String) : Bool := units k ≤ units l

/-- One of two names comes before the other one by UTF-16 and behind it as it is written: it ends
where the other one goes on with a character below the quote, or where they part their characters
are turned. -/
inductive OutOfOrder : List Char → List Char → Prop
  | ends {d : Char} {ds : List Char} (below : d = ' ' ∨ d = '!') : OutOfOrder [] (d :: ds)
  | turned {c d : Char} {cs ds : List Char} (turned : Turned c d) : OutOfOrder (c :: cs) (d :: ds)
  | cons {c : Char} {cs ds : List Char} (rest : OutOfOrder cs ds) : OutOfOrder (c :: cs) (c :: ds)

theorem not_turned_self (c : Char) : ¬ Turned c c := fun turned =>
  List.lt_irrefl _ ((turned_iff c c).1 turned).1

theorem escapeChar_append_lt_quote_iff (d : Char) (rest : List Char) :
    escapeChar d ++ rest < ['"'] ↔ d = ' ' ∨ d = '!' := by
  cases escaped : isEscaped d with
  | true =>
    obtain ⟨ds, written⟩ := escapeChar_of_isEscaped escaped
    have other : ¬ (d = ' ' ∨ d = '!') := by
      rintro (rfl | rfl) <;> exact absurd escaped (by decide)
    simp [written, List.cons_lt_cons_iff, char_lt_iff, other]
  | false =>
    rw [escapeChar_of_plain escaped]
    simp only [isEscaped, Bool.or_eq_false_iff, decide_eq_false_iff_not] at escaped
    simp only [List.cons_append, List.nil_append, List.cons_lt_cons_iff, List.not_lt_nil, and_false,
      or_false, char_lt_iff, ← Char.toNat_inj]
    have control : ¬ d.toNat < 0x20 := escaped.1.1
    simp only [Char.reduceToNat]
    omega

theorem outOfOrder_iff_lists (cs ds : List Char) : OutOfOrder cs ds ↔
    cs.flatMap utf16 < ds.flatMap utf16 ∧
      ds.flatMap escapeChar ++ ['"'] < cs.flatMap escapeChar ++ ['"'] := by
  induction cs generalizing ds with
  | nil =>
    cases ds with
    | nil =>
      simp only [List.flatMap_nil, List.not_lt_nil, false_and, iff_false]
      nofun
    | cons d ds =>
      have some_unit : [] < utf16 d ++ ds.flatMap utf16 := by
        obtain ⟨u, us, first⟩ := List.exists_cons_of_ne_nil (utf16_prefixFree.ne_nil d)
        rw [first]
        exact List.nil_lt_cons _ _
      simp only [List.flatMap_nil, List.flatMap_cons, List.append_assoc, List.nil_append,
        some_unit, true_and, escapeChar_append_lt_quote_iff]
      constructor
      · rintro (below | _ | _)
        exact below
      · exact .ends
  | cons c cs ih =>
    cases ds with
    | nil =>
      simp only [List.flatMap_nil, List.not_lt_nil, false_and, iff_false]
      nofun
    | cons d ds =>
      simp only [List.flatMap_cons, List.append_assoc]
      by_cases same : c = d
      · subst same
        rw [append_lt_append_left_iff, append_lt_append_left_iff, ← ih ds]
        constructor
        · rintro (_ | turned | rest)
          · exact absurd turned (not_turned_self c)
          · exact rest
        · exact .cons
      · rw [utf16_prefixFree.append_lt_append_iff same,
          escapeChar_prefixFree.append_lt_append_iff (Ne.symm same), ← turned_iff]
        constructor
        · rintro (_ | turned | rest)
          · exact turned
          · exact absurd rfl same
        · exact .turned

theorem outOfOrder_iff (k l : String) :
    OutOfOrder k.toList l.toList ↔ units k < units l ∧ quote l < quote k := by
  rw [outOfOrder_iff_lists, String.lt_iff_toList_lt]
  simp [units, quote]

instance (k l : String) : Decidable (OutOfOrder k.toList l.toList) :=
  decidable_of_iff _ (outOfOrder_iff k l).symm

example : OutOfOrder "\t".toList "\n".toList ∧ OutOfOrder "😀".toList "ﬁ".toList := by
  decide +kernel

theorem writtenLe_eq_conformingLe {k l : String} (h : ¬ OutOfOrder k.toList l.toList)
    (h' : ¬ OutOfOrder l.toList k.toList) : Value.writtenLe k l = conformingLe k l := by
  rw [outOfOrder_iff, not_and, not_lt] at h h'
  rw [Value.writtenLe, conformingLe, Bool.eq_iff_iff, decide_eq_true_eq, decide_eq_true_eq]
  rcases lt_trichotomy (units k) (units l) with lt | eq | gt
  · exact ⟨fun _ => lt.le, fun _ => h lt⟩
  · obtain rfl := units_inj eq
    simp
  · refine ⟨fun le => ?_, fun le => absurd gt (not_lt.2 le)⟩
    obtain rfl := quote_inj (le_antisymm le (h' gt))
    exact le_rfl

/-- Characters that neither order treats in a way of its own. -/
def isOrdinary (c : Char) : Bool := !isEscaped c && '!' < c && c.toNat < 0x10000

theorem not_outOfOrder_of_ordinary {cs ds : List Char} (h : ∀ c ∈ cs, isOrdinary c = true)
    (h' : ∀ d ∈ ds, isOrdinary d = true) : ¬ OutOfOrder cs ds := by
  intro out
  induction out with
  | ends below =>
    rcases below with rfl | rfl <;> exact absurd (h' _ List.mem_cons_self) (by decide)
  | @turned c d cs ds turned =>
    have ordinary := h c List.mem_cons_self
    simp only [isOrdinary, Bool.and_eq_true, Bool.not_eq_true', decide_eq_true_eq] at ordinary
    cases turned with
    | escape escaped | escapes escaped => exact absurd escaped (by simp [ordinary.1.1])
    | pair two => omega
  | cons _ ih =>
    exact ih (fun c mem => h c (.tail _ mem)) (fun d mem => h' d (.tail _ mem))

end Json
end CredentialSchema

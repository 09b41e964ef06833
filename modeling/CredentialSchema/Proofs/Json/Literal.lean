import CredentialSchema.Json.Reader
import CredentialSchema.Json.Writer
import CredentialSchema.Proofs.Number.Shortest

/-!
Number literals read back. The parts of a literal end where a character follows that none of
them may hold, so the reader takes exactly the digits that were written. A literal of digits
alone is an integer; a float is written with a point or an exponent, in each of the four layouts
for the value of its shortest decimal.
-/
namespace CredentialSchema.Json

/-- Nothing that follows goes on with the digits of a literal. -/
def EndsDigits (rest : List Char) : Prop := ∀ c ∈ rest.head?, c.isDigit = false

def EndsNumeral (rest : List Char) : Prop :=
  ∀ c ∈ rest.head?, c.isDigit = false ∧ c ≠ '.' ∧ c ≠ 'e' ∧ c ≠ 'E'

theorem EndsNumeral.digits {rest : List Char} (h : EndsNumeral rest) : EndsDigits rest :=
  fun c first => (h c first).1

def Number.InRange : Number → Prop
  | .integer n => -2 ^ 63 ≤ n ∧ n < 2 ^ 64
  | .float _ => True

def Numeral.decimal (n : Numeral) : Decimal :=
  let fraction := n.fraction.getD []
  ⟨Text.ofDigits 10 (n.whole ++ fraction), n.power.getD 0 - fraction.length⟩

namespace Reader

def values (ds : List Char) : List Nat := ds.map fun c => c.toNat - 48

@[simp] theorem length_values (ds : List Char) : (values ds).length = ds.length := by
  simp [values]

@[simp] theorem values_append (ds ds' : List Char) : values (ds ++ ds') = values ds ++ values ds' :=
  List.map_append

theorem ofDigits_values (ds : List Char) :
    Text.ofDigits 10 (values ds) = Nat.ofDigitChars 10 ds 0 := by
  simp [Text.ofDigits, values, Nat.ofDigitChars, List.foldl_map]

theorem isDigit_toDigits (n : ℕ) : ∀ c ∈ Nat.toDigits 10 n, c.isDigit = true :=
  fun _ mem => Nat.isDigit_of_mem_toDigits (by norm_num) le_rfl mem

theorem head_toDigits {n : ℕ} (positive : 0 < n) : ∀ c ∈ (Nat.toDigits 10 n).head?, c ≠ '0' := by
  induction n using Nat.strong_induction_on with
  | _ n ih =>
    rcases lt_or_ge n 10 with single | more
    · rw [Nat.toDigits_of_lt_base single]
      rintro c first rfl
      have isZero : n.digitChar = '0' := by simpa using first
      have same := Nat.toNat_digitChar_of_lt_ten single
      simp only [isZero, Char.reduceToNat] at same
      omega
    · rw [Nat.toDigits_of_base_le (by norm_num) more,
        List.head?_append_of_ne_nil _ Nat.toDigits_ne_nil]
      exact ih _ (by omega) (by omega)

variable {ds rest : List Char}

theorem digits1?_append (some_digit : ds ≠ []) (all : ∀ c ∈ ds, c.isDigit = true)
    (ends : EndsDigits rest) : digits1? (ds ++ rest) = some (values ds, rest) := by
  have stops : rest.takeWhile Char.isDigit = [] ∧ rest.dropWhile Char.isDigit = rest := by
    cases rest with
    | nil => simp
    | cons c rest => simp [ends c rfl]
  have run : digits (ds ++ rest) = (values ds, rest) := by
    rw [digits, List.takeWhile_append_of_pos all, List.dropWhile_append_of_pos all, stops.1,
      stops.2, List.append_nil]
    rfl
  cases ds with
  | nil => exact absurd rfl some_digit
  | cons d ds =>
    rw [digits1?, run]
    rfl

theorem wholePart?_append (some_digit : ds ≠ []) (all : ∀ c ∈ ds, c.isDigit = true)
    (plain : ds = ['0'] ∨ ∀ c ∈ ds.head?, c ≠ '0') (ends : EndsDigits rest) :
    wholePart? (ds ++ rest) = some (values ds, rest) := by
  rw [wholePart?, digits1?_append some_digit all ends]
  rcases plain with rfl | plain
  · rfl
  · cases ds with
    | nil => exact absurd rfl some_digit
    | cons d ds =>
      have least : '0'.toNat ≤ d.toNat := (Char.isDigit_iff_toNat.1 (all d List.mem_cons_self)).1
      have other : d.toNat ≠ '0'.toNat := fun same => plain d rfl (Char.toNat_inj.1 same)
      simp only [Char.reduceToNat] at least other
      obtain ⟨k, value⟩ := Nat.exists_eq_succ_of_ne_zero (show d.toNat - 48 ≠ 0 by omega)
      rw [values, List.map_cons, value]
      rfl

theorem fractionPart?_none (ends : EndsNumeral rest) : fractionPart? rest = some (none, rest) := by
  cases rest with
  | nil => rfl
  | cons c rest =>
    have := (ends c rfl).2.1
    simp [fractionPart?, this]

theorem fractionPart?_point (some_digit : ds ≠ []) (all : ∀ c ∈ ds, c.isDigit = true)
    (ends : EndsDigits rest) :
    fractionPart? ('.' :: (ds ++ rest)) = some (some (values ds), rest) := by
  rw [fractionPart?, digits1?_append some_digit all ends]
  rfl

theorem powerPart?_none (ends : EndsNumeral rest) : powerPart? rest = some (none, rest) := by
  cases rest with
  | nil => rfl
  | cons c rest =>
    obtain ⟨-, -, small, large⟩ := ends c rfl
    simp [powerPart?, small, large]

theorem powerPart?_mark (power : Int) (ends : EndsDigits rest) :
    powerPart? ('e' :: ((if power < 0 then ['-'] else ['+']) ++ Nat.toDigits 10 power.natAbs ++
      rest)) = some (some power, rest) := by
  have read := digits1?_append Nat.toDigits_ne_nil (isDigit_toDigits power.natAbs) ends
  have value : Text.ofDigits 10 (values (Nat.toDigits 10 power.natAbs)) = power.natAbs := by
    rw [ofDigits_values, Nat.ofDigitChars_ten_toDigits]
  split
  · next below =>
    simp only [powerPart?, List.cons_append, List.nil_append, beq_self_eq_true, Bool.true_or,
      if_true, read, Option.map_some, value]
    rw [show (-1 : Int) * power.natAbs = power by omega]
  · next above =>
    simp only [powerPart?, List.cons_append, List.nil_append, beq_self_eq_true, Bool.true_or,
      if_true, read, Option.map_some, value]
    rw [show (1 : Int) * power.natAbs = power by omega]

theorem endsDigits_mark (c : Char) (h : c.isDigit = false) : EndsDigits (c :: rest) := by
  rintro d first
  obtain rfl := Option.some.inj first
  exact h

variable {whole fraction : List Char}

theorem numeral?_point (negative : Bool) (some_whole : whole ≠ [])
    (all_whole : ∀ c ∈ whole, c.isDigit = true)
    (plain : whole = ['0'] ∨ ∀ c ∈ whole.head?, c ≠ '0') (some_fraction : fraction ≠ [])
    (all_fraction : ∀ c ∈ fraction, c.isDigit = true) (ends : EndsNumeral rest) :
    numeral? negative (whole ++ '.' :: (fraction ++ rest)) =
      some (⟨negative, values whole, some (values fraction), none⟩, rest) := by
  simp only [numeral?, wholePart?_append some_whole all_whole plain (endsDigits_mark '.' rfl),
    fractionPart?_point some_fraction all_fraction ends.digits, powerPart?_none ends,
    Option.bind_eq_bind, Option.bind_some, Option.pure_def]

theorem numeral?_mark (negative : Bool) {d : Char} {ds : List Char} (power : Int)
    (all : ∀ c ∈ d :: ds, c.isDigit = true) (notZero : d ≠ '0') (ends : EndsNumeral rest) :
    ∃ fraction : Option (List Nat), fraction.getD [] = values ds ∧
      numeral? negative ((if (d :: ds).length ≤ 1 then d :: ds else [d] ++ '.' :: ds) ++
        'e' :: ((if power < 0 then ['-'] else ['+']) ++ Nat.toDigits 10 power.natAbs ++ rest)) =
      some (⟨negative, values [d], fraction, some power⟩, rest) := by
  have mark := powerPart?_mark power ends.digits
  have first : ∀ c ∈ [d], c.isDigit = true := by simpa using all d List.mem_cons_self
  have plain : [d] = ['0'] ∨ ∀ c ∈ [d].head?, c ≠ '0' := .inr (by simpa using notZero)
  by_cases single : ds = []
  · subst single
    have stop (rest : List Char) : fractionPart? ('e' :: rest) = some (none, 'e' :: rest) := rfl
    refine ⟨none, rfl, ?_⟩
    simp only [List.length_singleton, le_refl, if_true, numeral?,
      wholePart?_append (List.cons_ne_nil d []) first plain (endsDigits_mark 'e' rfl), stop, mark,
      Option.bind_eq_bind, Option.bind_some, Option.pure_def]
  · have several : ¬ (d :: ds).length ≤ 1 := by simpa using single
    have others : ∀ c ∈ ds, c.isDigit = true := fun c mem => all c (.tail d mem)
    have stops : EndsDigits ('e' ::
        ((if power < 0 then ['-'] else ['+']) ++ Nat.toDigits 10 power.natAbs ++ rest)) :=
      endsDigits_mark 'e' rfl
    have point := fractionPart?_point single others stops
    refine ⟨some (values ds), rfl, ?_⟩
    simp only [several, if_false, List.append_assoc [d], List.cons_append (a := '.'), numeral?,
      wholePart?_append (List.cons_ne_nil d []) first plain (endsDigits_mark '.' rfl), point, mark,
      Option.bind_eq_bind, Option.bind_some, Option.pure_def]

end Reader

open Reader

/-- A text that is read as a literal of some value wherever it ends, and never as an integer. -/
def Spells (negative : Bool) (text : List Char) (value : ℚ) : Prop :=
  ∀ rest, EndsNumeral rest → ∃ n : Numeral,
    numeral? negative (text ++ rest) = some (n, rest) ∧ n.negative = negative ∧
      n.decimal.value = value ∧ (n.fraction.isSome ∨ n.power.isSome)

theorem spells_point (negative : Bool) (whole fraction : List Char) (some_whole : whole ≠ [])
    (all_whole : ∀ c ∈ whole, c.isDigit = true)
    (plain : whole = ['0'] ∨ ∀ c ∈ whole.head?, c ≠ '0') (some_fraction : fraction ≠ [])
    (all_fraction : ∀ c ∈ fraction, c.isDigit = true) :
    Spells negative (whole ++ '.' :: fraction)
      (Decimal.value ⟨Nat.ofDigitChars 10 (whole ++ fraction) 0, -fraction.length⟩) := by
  intro rest ends
  have read := numeral?_point negative some_whole all_whole plain some_fraction all_fraction ends
  refine ⟨_, .trans (congrArg _ (by simp)) read, rfl, ?_, .inl rfl⟩
  simp [Numeral.decimal, ← values_append, ofDigits_values]

theorem spells_mark (negative : Bool) {d : Char} {ds : List Char} (power : Int)
    (all : ∀ c ∈ d :: ds, c.isDigit = true) (notZero : d ≠ '0') :
    Spells negative ((if (d :: ds).length ≤ 1 then d :: ds else [d] ++ '.' :: ds) ++
        'e' :: ((if power < 0 then ['-'] else ['+']) ++ Nat.toDigits 10 power.natAbs))
      (Decimal.value ⟨Nat.ofDigitChars 10 (d :: ds) 0, power - ds.length⟩) := by
  intro rest ends
  obtain ⟨fraction, same, read⟩ := numeral?_mark negative power all notZero ends
  refine ⟨_, .trans (congrArg _ (by simp)) read, rfl, ?_, .inr rfl⟩
  have digits : values [d] ++ fraction.getD [] = values (d :: ds) := by simp [same, values]
  have count : (fraction.getD []).length = ds.length := by simp [same]
  simp only [Numeral.decimal, digits, count, ofDigits_values, Option.getD_some]

theorem isDigit_zeros (k : ℕ) : ∀ c ∈ List.replicate k '0', c.isDigit = true := by
  rintro c mem
  rw [List.eq_of_mem_replicate mem]
  rfl

section Digits

variable {ds : List Char} (negative : Bool)

theorem spells_behind_point (some_digit : ds ≠ []) (all : ∀ c ∈ ds, c.isDigit = true) (k : ℕ) :
    Spells negative (['0', '.'] ++ List.replicate k '0' ++ ds)
      (Decimal.value ⟨Nat.ofDigitChars 10 ds 0, -(k + ds.length)⟩) := by
  have spells := spells_point negative ['0'] (List.replicate k '0' ++ ds)
    (List.cons_ne_nil '0' []) (by simp) (.inl rfl) (by simp [some_digit])
    (fun c mem => (List.mem_append.1 mem).elim (isDigit_zeros _ c) (all c))
  have digits : Nat.ofDigitChars 10 (['0'] ++ (List.replicate k '0' ++ ds)) 0 =
      Nat.ofDigitChars 10 ds 0 := by
    simp [Nat.ofDigitChars_append, Nat.ofDigitChars_replicate_zero, Nat.ofDigitChars_cons]
  rw [digits] at spells
  simpa using spells

theorem spells_around_point (all : ∀ c ∈ ds, c.isDigit = true)
    (plain : ∀ c ∈ ds.head?, c ≠ '0') {k : ℕ} (some_digit : 0 < k) (another : k < ds.length) :
    Spells negative (ds.take k ++ '.' :: ds.drop k)
      (Decimal.value ⟨Nat.ofDigitChars 10 ds 0, k - ds.length⟩) := by
  have spells := spells_point negative (ds.take k) (ds.drop k)
    (List.ne_nil_of_length_pos (by rw [List.length_take]; omega))
    (fun c mem => all c (List.mem_of_mem_take mem))
    (.inr (by rwa [List.head?_take, if_neg some_digit.ne'])) (by simp; omega)
    (fun c mem => all c (List.mem_of_mem_drop mem))
  rw [List.take_append_drop, List.length_drop, Nat.cast_sub another.le, neg_sub] at spells
  exact spells

theorem spells_before_point (some_digit : ds ≠ []) (all : ∀ c ∈ ds, c.isDigit = true)
    (plain : ∀ c ∈ ds.head?, c ≠ '0') (k : ℕ) :
    Spells negative (ds ++ List.replicate k '0' ++ ['.', '0'])
      (Decimal.value ⟨Nat.ofDigitChars 10 ds 0, k⟩) := by
  have spells := spells_point negative (ds ++ List.replicate k '0') ['0']
    (by simp [some_digit]) (fun c mem => (List.mem_append.1 mem).elim (all c) (isDigit_zeros _ c))
    (.inr (by rwa [List.head?_append_of_ne_nil _ some_digit])) (by simp) (by simp)
  have digits : Nat.ofDigitChars 10 (ds ++ List.replicate k '0' ++ ['0']) 0 =
      10 * (10 ^ k * Nat.ofDigitChars 10 ds 0) := by
    simp [Nat.ofDigitChars_append, Nat.ofDigitChars_replicate_zero, Nat.ofDigitChars_cons]
  have same : Decimal.value ⟨10 * (10 ^ k * Nat.ofDigitChars 10 ds 0), -1⟩ =
      Decimal.value ⟨Nat.ofDigitChars 10 ds 0, k⟩ := by
    simp only [Decimal.value]
    push_cast
    rw [zpow_natCast, zpow_neg_one]
    ring
  rw [digits] at spells
  rwa [← same]

end Digits

theorem spells_write (negative : Bool) {d : Decimal} (positive : 0 < d.digits) :
    Spells negative (d.write floatStyle).toList d.value := by
  obtain ⟨digits, exponent⟩ := d
  have some_digit : Nat.toDigits 10 digits ≠ [] := Nat.toDigits_ne_nil
  have all := isDigit_toDigits digits
  have plain := head_toDigits positive
  have spelled : Nat.ofDigitChars 10 (Nat.toDigits 10 digits) 0 = digits :=
    Nat.ofDigitChars_ten_toDigits
  simp only [Decimal.write, floatStyle, if_true]
  generalize Nat.toDigits 10 digits = ds at *
  subst spelled
  split
  · next positional =>
    split
    · next small =>
      convert spells_behind_point negative some_digit all (-(exponent + ds.length)).toNat using 1
      · simp
      · congr 2
        omega
    · next large =>
      split
      · next inner =>
        convert spells_around_point negative all plain (k := (exponent + ds.length).toNat)
          (by omega) (by omega) using 1
        · simp
        · congr 2
          omega
      · next whole =>
        convert spells_before_point negative some_digit all plain
          (exponent + ds.length - ds.length).toNat using 1
        · simp
        · congr 2
          omega
  · next scientific =>
    obtain ⟨c, ds, rfl⟩ := List.exists_cons_of_ne_nil some_digit
    convert spells_mark negative (exponent + (c :: ds).length - 1) all (plain c rfl) using 1
    · simp
    · congr 2
      simp
      omega

theorem number?_of_numeral? {negative : Bool} {cs rest : List Char} {n : Numeral} {m : Number}
    (read : numeral? negative cs = some (n, rest)) (value : n.value? = some m) :
    number? negative cs = some (.number m, rest) := by
  simp [number?, read, value]

theorem isDigit_of_number? {negative : Bool} {cs : List Char} {r : Document × List Char}
    (h : number? negative cs = some r) : ∃ d ds, cs = d :: ds ∧ d.isDigit = true := by
  cases cs with
  | nil => exact absurd h nofun
  | cons d ds =>
    refine ⟨d, ds, rfl, ?_⟩
    by_contra other
    simp [number?, numeral?, wholePart?, digits1?, digits, other] at h

theorem integer?_eq_none {n : Numeral} (h : n.fraction.isSome ∨ n.power.isSome) :
    n.integer? = none := by
  rw [Numeral.integer?, if_pos (by simpa using h)]

theorem number?_of_spells {x : Binary64} {text : List Char} {value : ℚ}
    (h : Spells x.negative text value) (positive : 0 < x.significand)
    (rounds : Binary64.Rounds x value) {rest : List Char} (ends : EndsNumeral rest) :
    number? x.negative (text ++ rest) = some (.number (.float x), rest) := by
  obtain ⟨n, read, sign, same, notInteger⟩ := h rest ends
  have float : n.float? = some x := by
    rw [← same] at rounds
    have := Decimal.toBinary64?_of_rounds positive rounds
    rwa [← sign] at this
  refine number?_of_numeral? read ?_
  rw [Numeral.value?, integer?_eq_none notInteger, float]
  rfl

theorem number?_zero (negative : Bool) {rest : List Char} (ends : EndsNumeral rest) :
    number? negative (['0', '.', '0'] ++ rest) =
      some (.number (.float (.zero negative)), rest) := by
  have read := numeral?_point negative (List.cons_ne_nil '0' []) (by simp) (.inl rfl)
    (List.cons_ne_nil '0' []) (by simp) ends
  have value : Numeral.value? ⟨negative, values ['0'], some (values ['0']), none⟩ =
      some (.float (.zero negative)) := by
    cases negative <;> decide
  exact number?_of_numeral? read value

theorem numeral?_digits (negative : Bool) (n : ℕ) {rest : List Char} (ends : EndsNumeral rest) :
    numeral? negative (Nat.toDigits 10 n ++ rest) =
      some (⟨negative, values (Nat.toDigits 10 n), none, none⟩, rest) := by
  have plain : Nat.toDigits 10 n = ['0'] ∨ ∀ c ∈ (Nat.toDigits 10 n).head?, c ≠ '0' := by
    rcases Nat.eq_zero_or_pos n with rfl | positive
    · exact .inl rfl
    · exact .inr (head_toDigits positive)
  simp only [numeral?, wholePart?_append Nat.toDigits_ne_nil (isDigit_toDigits n) plain ends.digits,
    fractionPart?_none ends, powerPart?_none ends, Option.bind_eq_bind, Option.bind_some,
    Option.pure_def]

theorem number?_integer {n : ℤ} (inRange : (Number.integer n).InRange) {rest : List Char}
    (ends : EndsNumeral rest) :
    number? (decide (n < 0)) (Nat.toDigits 10 n.natAbs ++ rest) =
      some (.number (.integer n), rest) := by
  have spelled : Text.ofDigits 10 (values (Nat.toDigits 10 n.natAbs)) = n.natAbs := by
    rw [ofDigits_values, Nat.ofDigitChars_ten_toDigits]
  have integer : Numeral.integer? ⟨decide (n < 0), values (Nat.toDigits 10 n.natAbs), none,
      none⟩ = some n := by
    obtain ⟨least, most⟩ := inRange
    simp only [Numeral.integer?, spelled, Option.isSome_none, Bool.or_self, Bool.false_eq_true,
      if_false, decide_eq_true_eq, Nat.pow_eq, Nat.cast_pow, Nat.cast_ofNat]
    rcases lt_or_ge n 0 with below | above
    · rw [if_pos below, if_pos (by omega), show -(n.natAbs : ℤ) = n by omega]
    · rw [if_neg above.not_gt, if_pos (by omega), show (n.natAbs : ℤ) = n by omega]
  have value : Numeral.value? ⟨decide (n < 0), values (Nat.toDigits 10 n.natAbs), none,
      none⟩ = some (.integer n) := by
    rw [Numeral.value?, integer]
  exact number?_of_numeral? (numeral?_digits _ _ ends) value

theorem exists_number? {n : Number} (inRange : n.InRange) :
    ∃ (negative : Bool) (text : List Char),
      n.write.toList = (if negative then ['-'] else []) ++ text ∧
      ∀ rest, EndsNumeral rest → number? negative (text ++ rest) = some (.number n, rest) := by
  cases n with
  | integer n =>
    refine ⟨decide (n < 0), Nat.toDigits 10 n.natAbs, ?_, fun _ => number?_integer inRange⟩
    rw [Number.write, Int.toString_eq_repr, Int.repr_eq_if]
    rcases lt_or_ge n 0 with below | above
    · simp [below, below.not_ge, show (-n).toNat = n.natAbs by omega]
    · simp [above, above.not_gt, show n.toNat = n.natAbs by omega]
  | float x =>
    rw [Number.write, Binary64.write]
    by_cases isZero : x.significand = 0
    · have same : x = .zero x.negative := by
        obtain ⟨negative, m, e, normal⟩ := x
        obtain rfl : m = 0 := isZero
        obtain rfl : e = -1074 := normal.2.2.2.resolve_left (by decide)
        rfl
      refine ⟨x.negative, ['0', '.', '0'], ?_, fun rest ends => ?_⟩
      · cases sign : x.negative <;> simp [Binary64.isZero, isZero, floatStyle]
      · rw [number?_zero x.negative ends, ← same]
    · have positive : 0 < x.significand := by omega
      have rounds := Decimal.rounds_shortest positive
      have digits := Decimal.digits_pos_of_rounds positive rounds
      refine ⟨x.negative, ((Decimal.shortest x).write floatStyle).toList, ?_, fun rest ends => ?_⟩
      · cases sign : x.negative <;> simp [Binary64.isZero, isZero]
      · exact number?_of_spells (spells_write x.negative digits) positive rounds ends

end CredentialSchema.Json

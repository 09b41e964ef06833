import CredentialSchema.Proofs.Hexadecimal
import CredentialSchema.Proofs.Json.Literal
import CredentialSchema.Yaml.Reader

/-!
Laid-out text reads back. What is written of a value, with any level of indentation and before
anything that does not go on with a number, is read as the document of the value, where a
container that is nested too deep has no value. The blanks and line breaks of the layout stand
only where the reader skips them, and the fuel of a whole text is enough for every value in it.
-/
namespace CredentialSchema.Json

open Reader

theorem hexDigits_four (n : Nat) : ∃ a b c d, Text.hexDigits 4 n = [a, b, c, d] :=
  ⟨_, _, _, _, rfl⟩

theorem stringBody_escapeChar (c : Char) (rest : List Char) :
    stringBody (escapeChar c ++ rest) =
      (stringBody rest).map fun r => (c.toNat :: r.1, r.2) := by
  unfold escapeChar
  split
  case h_8 quote backslash newline carriage tab backspace feed =>
    split
    · next control =>
      have read := Text.hexadecimal?_hexDigits (w := 4) (n := c.toNat) (by decide) (by omega)
      obtain ⟨x, y, z, w, digits⟩ := hexDigits_four c.toNat
      rw [digits] at read ⊢
      cases body : stringBody rest <;> simp [stringBody, unit?, read, body]
    · next plain =>
      cases body : stringBody rest <;> simp_all [stringBody]
  all_goals cases body : stringBody rest <;> simp [stringBody, shortEscape?, body]

theorem toNat_valid (c : Char) : c.toNat < 0xD800 ∨ 0xE000 ≤ c.toNat ∧ c.toNat < 0x110000 := by
  rcases c.valid with below | above
  · exact .inl below
  · exact .inr ⟨above.1, above.2⟩

theorem joinUnits_toNat (s : List Char) : joinUnits (s.map Char.toNat) = some s := by
  induction s with
  | nil => rfl
  | cons c s ih =>
    have valid := toNat_valid c
    rw [List.map_cons, joinUnits.eq_def]
    simp only []
    rw [if_neg (by omega), if_neg (by omega), ih, Option.map_some, Char.ofNat_toNat]

theorem stringBody_quote (s rest : List Char) :
    stringBody (s.flatMap escapeChar ++ '"' :: rest) = some (s.map Char.toNat, rest) := by
  induction s with
  | nil => rfl
  | cons c s ih =>
    rw [List.flatMap_cons, List.append_assoc, stringBody_escapeChar, ih]
    rfl

theorem skip_append {gap : List Char} (blank : ∀ c ∈ gap, isSpace c = true) (cs : List Char) :
    skip (gap ++ cs) = skip cs :=
  List.dropWhile_append_of_pos blank

theorem skip_cons {c : Char} (h : isSpace c = false) (cs : List Char) :
    skip (c :: cs) = c :: cs := by
  simp [skip, h]

theorem skip_skip (cs : List Char) : skip (skip cs) = skip cs := by
  induction cs with
  | nil => rfl
  | cons c cs ih =>
    by_cases blank : isSpace c = true
    · rwa [← List.singleton_append, skip_append (by simpa using blank)]
    · have token : isSpace c = false := by simpa using blank
      rw [skip_cons token, skip_cons token]

theorem value?_skip (fuel levels : ℕ) (cs : List Char) :
    value? fuel levels (skip cs) = value? fuel levels cs := by
  cases fuel with
  | zero => rfl
  | succ fuel => rw [value?, value?, skip_skip]

theorem items?_skip (fuel levels : ℕ) (cs : List Char) :
    items? fuel levels (skip cs) = items? fuel levels cs := by
  cases fuel with
  | zero => rfl
  | succ fuel => rw [items?, items?, value?_skip]

theorem members?_skip (fuel levels : ℕ) (cs : List Char) :
    members? fuel levels (skip cs) = members? fuel levels cs := by
  cases fuel with
  | zero => rfl
  | succ fuel => rw [members?, members?, skip_skip]

namespace Value

mutual
/-- Every integer in the value has 64 bits. -/
def InRange : Value → Prop
  | .number n => n.InRange
  | .array vs => InRangeItems vs
  | .object ms => InRangeMembers ms
  | _ => True

def InRangeItems : List Value → Prop
  | [] => True
  | v :: vs => InRange v ∧ InRangeItems vs

def InRangeMembers : List (String × Value) → Prop
  | [] => True
  | (_, v) :: ms => InRange v ∧ InRangeMembers ms
end

theorem inRangeMembers_append (ms ms' : List (String × Value)) :
    InRangeMembers (ms ++ ms') ↔ InRangeMembers ms ∧ InRangeMembers ms' := by
  induction ms with
  | nil => simp [InRangeMembers]
  | cons m ms ih => simp [InRangeMembers, ih, and_assoc]

/-- A value that can be written and read again. -/
structure Storable (v : Value) : Prop where
  distinct : v.Distinct
  inRange : v.InRange

end Value

theorem isSpace_of_mem_newline (level : ℕ) :
    ∀ c ∈ (Value.newline level).toList, isSpace c = true := by
  intro c mem
  rw [Value.newline, String.toList_ofList, List.mem_cons, List.mem_replicate] at mem
  rcases mem with rfl | ⟨-, rfl⟩ <;> rfl

theorem layout_toList (level : ℕ) (opening closing : String) (entries : List String)
    (some_entry : entries ≠ []) :
    (Value.layout level opening closing entries).toList = opening.toList ++
      (Value.newline (level + 1)).toList ++
      (',' :: (Value.newline (level + 1)).toList).intercalate (entries.map String.toList) ++
      (Value.newline level).toList ++ closing.toList := by
  have notEmpty : entries.isEmpty = false := by simpa using some_entry
  simp [Value.layout, notEmpty]

theorem ne_of_isDigit {d c : Char} (digit : d.isDigit = true) (other : c.isDigit = false) :
    d ≠ c := by
  rintro rfl
  simp [digit] at other

theorem value?_number {n : Number} (inRange : n.InRange) (fuel levels : ℕ) {rest : List Char}
    (ends : EndsNumeral rest) :
    value? (fuel + 1) levels (n.write.toList ++ rest) = some (.number n, rest) := by
  obtain ⟨negative, text, written, read⟩ := exists_number? inRange
  have read := read rest ends
  rw [written]
  cases negative with
  | true => simpa [value?, skip_cons (c := '-') rfl] using read
  | false =>
    obtain ⟨d, ds, text, digit⟩ := isDigit_of_number? read
    have token : isSpace d = false := by
      simp [isSpace, ne_of_isDigit (d := d) digit]
    simp only [Bool.false_eq_true, if_false, List.nil_append]
    rw [text] at read ⊢
    rw [value?, skip_cons token]
    split
    case h_8 => exact read
    all_goals
      next first =>
        exact absurd (List.cons.inj first).1 (ne_of_isDigit digit rfl)

theorem value?_string (s : String) (fuel levels : ℕ) (rest : List Char) :
    value? (fuel + 1) levels ((quote s).toList ++ rest) = some (.text s, rest) := by
  have body := stringBody_quote s.toList rest
  simp [value?, quote, skip_cons (c := '"') rfl, body, joinUnits_toNat]

theorem value?_bracket (fuel levels : ℕ) {cs r : List Char} (h : skip cs = ']' :: r) :
    value? fuel levels cs = none := by
  cases fuel with
  | zero => rfl
  | succ fuel =>
    rw [value?, h]
    rfl

theorem endsNumeral_cons {c : Char} (h : c.isDigit = false ∧ c ≠ '.' ∧ c ≠ 'e' ∧ c ≠ 'E')
    (rest : List Char) : EndsNumeral (c :: rest) := by
  rintro d first
  obtain rfl := Option.some.inj first
  exact h

theorem endsNumeral_newline (level : ℕ) (rest : List Char) :
    EndsNumeral ((Value.newline level).toList ++ rest) := by
  rw [Value.newline, String.toList_ofList]
  exact endsNumeral_cons (by decide) _

theorem skip_newline (level : ℕ) (cs : List Char) :
    skip ((Value.newline level).toList ++ cs) = skip cs :=
  skip_append (isSpace_of_mem_newline level) cs

def comma (level : ℕ) : List Char := ',' :: (Value.newline level).toList

theorem items?_newline (level fuel levels : ℕ) (cs : List Char) :
    items? fuel levels ((Value.newline level).toList ++ cs) = items? fuel levels cs := by
  rw [← items?_skip, skip_newline, items?_skip]

theorem members?_newline (level fuel levels : ℕ) (cs : List Char) :
    members? fuel levels ((Value.newline level).toList ++ cs) = members? fuel levels cs := by
  rw [← members?_skip, skip_newline, members?_skip]

open Value Document
open Yaml (limited limitedItems limitedMembers)

theorem size_pos (v : Value) : 0 < v.size := by
  cases v <;> simp [size]

theorem limited_sequence (levels : ℕ) (ds : List Document) :
    limited levels (.sequence ds) = nested levels (.sequence (limitedItems (levels - 1) ds)) := by
  rw [limited, nested]

theorem limited_mapping (levels : ℕ) (ms : List (Document × Document)) :
    limited levels (.mapping ms) = nested levels (.mapping (limitedMembers (levels - 1) ms)) := by
  rw [limited, nested]

theorem value?_blank (fuel levels : ℕ) (cs : List Char) :
    value? fuel levels (' ' :: cs) = value? fuel levels cs := by
  rw [← value?_skip, ← List.singleton_append, skip_append (by simp [isSpace]), value?_skip]

section Member

variable {k : String} {fuel levels : ℕ} {text next r : List Char} {d : Document}
  (value : value? fuel levels (text ++ next) = some (d, next))
include value

theorem members?_last (closed : skip next = '}' :: r) :
    members? (fuel + 1) levels ((quote k).toList ++ (':' :: ' ' :: (text ++ next))) =
      some (some [(.text k, d)], r) := by
  simp [members?, quote, skip_cons (c := '"') rfl, stringBody_quote, joinUnits_toNat,
    skip_cons (c := ':') rfl, value?_blank, value, closed]

theorem members?_next (separated : skip next = ',' :: r) {ms : List (Document × Document)}
    {rest : List Char} (others : members? fuel levels r = some (some ms, rest)) :
    members? (fuel + 1) levels ((quote k).toList ++ (':' :: ' ' :: (text ++ next))) =
      some (some ((.text k, d) :: ms), rest) := by
  simp [members?, quote, skip_cons (c := '"') rfl, stringBody_quote, joinUnits_toNat,
    skip_cons (c := ':') rfl, value?_blank, value, separated, others]

end Member

theorem value?_array {vs : List Value} (level fuel levels : ℕ) (rest : List Char)
    (items : vs ≠ [] → items? fuel (levels - 1)
      ((comma (level + 1)).intercalate ((prettyItems (level + 1) vs).map String.toList) ++
        ((newline level).toList ++ ']' :: rest)) =
      some (limitedItems (levels - 1) (ofItems vs), rest)) :
    value? (fuel + 1) levels ((prettyAt level (.array vs)).toList ++ rest) =
      some (limited levels (ofValue (.array vs)), rest) := by
  rw [prettyAt, ofValue, limited_sequence]
  by_cases empty : vs = []
  · subst empty
    simp [prettyItems, layout, value?, skip_cons (c := '[') rfl, skip_cons (c := ']') rfl, nested,
      ofItems, limitedItems]
  · have read := items empty
    have some_entry : prettyItems (level + 1) vs ≠ [] := by
      cases vs with
      | nil => exact absurd rfl empty
      | cons v vs => simp [prettyItems]
    have notClosed (r : List Char) : skip ((comma (level + 1)).intercalate
        ((prettyItems (level + 1) vs).map String.toList) ++ ((newline level).toList ++
          ']' :: rest)) ≠ ']' :: r := by
      intro closed
      cases fuel with
      | zero => simp [items?] at read
      | succ fuel => simp [items?, value?_bracket _ _ closed] at read
    rw [layout_toList _ _ _ _ some_entry]
    simp only [← comma.eq_1, List.append_assoc]
    generalize (comma (level + 1)).intercalate _ = text at read notClosed ⊢
    rw [value?, show "[".toList = ['['] from rfl, show "]".toList = [']'] from rfl,
      List.singleton_append, List.singleton_append, skip_cons rfl]
    simp only [skip_newline]
    rw [items?_skip, read]
    rfl

theorem value?_object {ms : List (String × Value)} (level fuel levels : ℕ) (rest : List Char)
    (members : ms ≠ [] → members? fuel (levels - 1)
      ((comma (level + 1)).intercalate ((prettyMembers (level + 1) ms).map String.toList) ++
        ((newline level).toList ++ '}' :: rest)) =
      some (some (limitedMembers (levels - 1) (ofMembers ms)), rest)) :
    value? (fuel + 1) levels ((prettyAt level (.object ms)).toList ++ rest) =
      some (limited levels (ofValue (.object ms)), rest) := by
  rw [prettyAt, ofValue, limited_mapping]
  by_cases empty : ms = []
  · subst empty
    simp [prettyMembers, layout, value?, skip_cons (c := '{') rfl, skip_cons (c := '}') rfl,
      nested, ofMembers, limitedMembers]
  · have read := members empty
    have some_entry : prettyMembers (level + 1) ms ≠ [] := by
      cases ms with
      | nil => exact absurd rfl empty
      | cons m ms => simp [prettyMembers]
    have notClosed (r : List Char) : skip ((comma (level + 1)).intercalate
        ((prettyMembers (level + 1) ms).map String.toList) ++ ((newline level).toList ++
          '}' :: rest)) ≠ '}' :: r := by
      intro closed
      cases fuel with
      | zero => simp [members?] at read
      | succ fuel => simp [members?, closed] at read
    rw [layout_toList _ _ _ _ some_entry]
    simp only [← comma.eq_1, List.append_assoc]
    generalize (comma (level + 1)).intercalate _ = text at read notClosed ⊢
    rw [value?, show "\x7b".toList = ['{'] from rfl, show "\x7d".toList = ['}'] from rfl,
      List.singleton_append, List.singleton_append, skip_cons rfl]
    simp only [skip_newline]
    rw [members?_skip, read]
    rfl

mutual
theorem value?_pretty : ∀ (v : Value) (level fuel levels : ℕ) (rest : List Char), v.InRange →
    EndsNumeral rest → 2 * v.size ≤ fuel + 2 →
    value? (fuel + 1) levels ((prettyAt level v).toList ++ rest) =
      some (limited levels (ofValue v), rest)
  | .null, level, fuel, levels, rest, _, _, _ => by
    simp [prettyAt, value?, skip_cons (c := 'n') rfl, word?, ofValue, limited]
  | .bool b, level, fuel, levels, rest, _, _, _ => by
    cases b
    · simp [prettyAt, value?, skip_cons (c := 'f') rfl, word?, ofValue, limited]
    · simp [prettyAt, value?, skip_cons (c := 't') rfl, word?, ofValue, limited]
  | .number n, level, fuel, levels, rest, inRange, ends, _ =>
    value?_number inRange fuel levels ends
  | .string s, level, fuel, levels, rest, _, _, _ =>
    value?_string s fuel levels rest
  | .array vs, level, fuel, levels, rest, inRange, _, enough =>
    value?_array level fuel levels rest fun some_item =>
      items?_pretty vs (level + 1) level fuel (levels - 1) rest some_item inRange
        (by simp only [size] at enough; omega)
  | .object ms, level, fuel, levels, rest, inRange, _, enough =>
    value?_object level fuel levels rest fun some_member =>
      members?_pretty ms (level + 1) level fuel (levels - 1) rest some_member inRange
        (by simp only [size] at enough; omega)

theorem items?_pretty : ∀ (vs : List Value) (level outer fuel levels : ℕ) (rest : List Char),
    vs ≠ [] → InRangeItems vs → 2 * sizeItems vs ≤ fuel →
    items? fuel levels ((comma level).intercalate ((prettyItems level vs).map String.toList) ++
      ((newline outer).toList ++ ']' :: rest)) = some (limitedItems levels (ofItems vs), rest)
  | [], _, _, _, _, _, some_item, _, _ => absurd rfl some_item
  | v :: vs, level, outer, fuel, levels, rest, _, inRange, enough => by
    have positive := size_pos v
    simp only [sizeItems] at enough
    obtain ⟨fuel, rfl⟩ : ∃ k, fuel = k + 2 := ⟨fuel - 2, by omega⟩
    have first (next : List Char) (ends : EndsNumeral next) :=
      value?_pretty v level fuel levels next inRange.1 ends (by omega)
    have others (some_item : vs ≠ []) :=
      items?_pretty vs level outer (fuel + 1) levels rest some_item inRange.2 (by omega)
    cases vs with
    | nil =>
      rw [items?, prettyItems, prettyItems, List.map_singleton, List.intercalate_singleton,
        first _ (endsNumeral_newline outer _)]
      simp [skip_newline, skip_cons (c := ']') rfl, ofItems, limitedItems]
    | cons w ws =>
      have others := others (List.cons_ne_nil w ws)
      rw [prettyItems, List.map_cons] at others
      rw [items?, prettyItems, prettyItems, List.map_cons, List.map_cons,
        List.intercalate_cons_cons, comma, List.append_assoc, List.append_assoc, List.cons_append,
        first _ (endsNumeral_cons (by decide) _)]
      simp only [comma] at others
      simp [skip_cons (c := ',') rfl, items?_newline, others, ofItems, limitedItems]

theorem members?_pretty : ∀ (ms : List (String × Value)) (level outer fuel levels : ℕ)
    (rest : List Char), ms ≠ [] → InRangeMembers ms → 2 * sizeMembers ms ≤ fuel →
    members? fuel levels ((comma level).intercalate ((prettyMembers level ms).map String.toList) ++
      ((newline outer).toList ++ '}' :: rest)) =
        some (some (limitedMembers levels (ofMembers ms)), rest)
  | [], _, _, _, _, _, some_member, _, _ => absurd rfl some_member
  | (k, v) :: ms, level, outer, fuel, levels, rest, _, inRange, enough => by
    have positive := size_pos v
    simp only [sizeMembers] at enough
    obtain ⟨fuel, rfl⟩ : ∃ k, fuel = k + 2 := ⟨fuel - 2, by omega⟩
    have first (next : List Char) (ends : EndsNumeral next) :=
      value?_pretty v level fuel levels next inRange.1 ends (by omega)
    have others (some_member : ms ≠ []) :=
      members?_pretty ms level outer (fuel + 1) levels rest some_member inRange.2 (by omega)
    have text (entry : String) : (quote k ++ ": " ++ entry).toList =
        (quote k).toList ++ ':' :: ' ' :: entry.toList := by
      simp
    cases ms with
    | nil =>
      have read := members?_last (k := k) (first _ (endsNumeral_newline outer ('}' :: rest)))
        (by rw [skip_newline, skip_cons rfl])
      simpa [prettyMembers, text, ofMembers, ofValue, limitedMembers, limited] using read
    | cons m ms =>
      have others := others (List.cons_ne_nil m ms)
      rw [← members?_newline level] at others
      have read := members?_next (k := k) (first _ (endsNumeral_cons (by decide) _))
        (skip_cons (c := ',') rfl _) others
      simpa [prettyMembers, text, comma, ofMembers, ofValue, limitedMembers, limited] using read
end

theorem layout_nil (level : ℕ) (opening closing : String) :
    Value.layout level opening closing [] = opening ++ closing := rfl

mutual
theorem size_le_length : ∀ (v : Value) (level : ℕ), v.InRange →
    v.size ≤ (prettyAt level v).toList.length
  | .null, _, _ => by simp [size, prettyAt]
  | .bool true, _, _ => by simp [size, prettyAt]
  | .bool false, _, _ => by simp [size, prettyAt]
  | .number n, level, inRange => by
    obtain ⟨negative, text, written, read⟩ := exists_number? inRange
    obtain ⟨d, ds, digit, -⟩ := isDigit_of_number? (read [] nofun)
    rw [List.append_nil] at digit
    simp [size, prettyAt, written, digit]
    omega
  | .string s, _, _ => by simp [size, prettyAt, quote]
  | .array vs, level, inRange => by
    have items := sizeItems_le_length vs (level + 1) inRange
    rw [prettyAt, size]
    cases vs with
    | nil => simp [sizeItems, prettyItems, layout_nil]
    | cons v vs =>
      rw [layout_toList _ _ _ _ (by simp [prettyItems])]
      simp only [← comma.eq_1, List.length_append, show "[".toList.length = 1 from rfl]
      omega
  | .object ms, level, inRange => by
    have members := sizeMembers_le_length ms (level + 1) inRange
    rw [prettyAt, size]
    cases ms with
    | nil => simp [sizeMembers, prettyMembers, layout_nil]
    | cons m ms =>
      rw [layout_toList _ _ _ _ (by simp [prettyMembers])]
      simp only [← comma.eq_1, List.length_append, show "\x7b".toList.length = 1 from rfl]
      omega

theorem sizeItems_le_length : ∀ (vs : List Value) (level : ℕ), InRangeItems vs →
    sizeItems vs ≤ ((comma level).intercalate ((prettyItems level vs).map String.toList)).length
  | [], _, _ => Nat.zero_le _
  | v :: vs, level, inRange => by
    have first := size_le_length v level inRange.1
    have others := sizeItems_le_length vs level inRange.2
    cases vs with
    | nil => simpa [prettyItems, sizeItems] using first
    | cons w ws =>
      simp only [prettyItems, List.map_cons, List.intercalate_cons_cons, List.length_append,
        sizeItems] at others ⊢
      omega

theorem sizeMembers_le_length : ∀ (ms : List (String × Value)) (level : ℕ), InRangeMembers ms →
    sizeMembers ms ≤ ((comma level).intercalate ((prettyMembers level ms).map String.toList)).length
  | [], _, _ => Nat.zero_le _
  | (k, v) :: ms, level, inRange => by
    have first := size_le_length v level inRange.1
    have others := sizeMembers_le_length ms level inRange.2
    cases ms with
    | nil =>
      simp [prettyMembers, sizeMembers]
      omega
    | cons m ms =>
      simp only [prettyMembers, List.map_cons, List.intercalate_cons_cons, List.length_append,
        sizeMembers, String.toList_append] at others ⊢
      omega
end

theorem read?_pretty {v : Value} (inRange : v.InRange) :
    read? (v.pretty ++ "\n") = some (limited nestingLimit (ofValue v)) := by
  have enough := size_le_length v 0 inRange
  have read := value?_pretty v 0 (2 * (v.pretty ++ "\n").toList.length + 1) nestingLimit ['\n']
    inRange (endsNumeral_cons (by decide) []) (by simp [pretty]; omega)
  have text : (v.pretty ++ "\n").toList = (prettyAt 0 v).toList ++ ['\n'] := by simp [pretty]
  have nothingLeft : skip ['\n'] = [] := rfl
  simp only [read?, text] at read ⊢
  rw [read, Option.bind_eq_bind, Option.bind_some]
  simp [nothingLeft]

end CredentialSchema.Json

import Mathlib.Data.List.Perm.Basic
import CredentialSchema.Json.Canonical
import CredentialSchema.Proofs.Json.Text

/-!
Text in the order in which members are listed. No value's text goes on where a comma or a closing
bracket stands, so a text tells where each of its values ends, and with them every name and every
value is read off it. Canonical text is the text of the value whose members are sorted.
-/
namespace CredentialSchema.Json

open Reader

/-- Where a value ends: at the end of the text, at a comma or at a closing bracket. -/
def Ends (rest : List Char) : Prop := ∀ c ∈ rest.head?, c ∈ [',', ']', '}']

theorem ends_nil : Ends [] := by simp [Ends]

def isNumeral (c : Char) : Bool := c.isDigit || c ∈ ['.', 'e', '+', '-']

theorem isNumeral_of_isDigit {c : Char} (h : c.isDigit = true) : isNumeral c = true := by
  simp [isNumeral, h]

theorem isNumeral_toDigits (n : ℕ) : ∀ c ∈ Nat.toDigits 10 n, isNumeral c = true :=
  fun c mem => isNumeral_of_isDigit (isDigit_toDigits n c mem)

theorem isNumeral_zeros (k : ℕ) : ∀ c ∈ List.replicate k '0', isNumeral c = true :=
  fun c mem => isNumeral_of_isDigit (isDigit_zeros k c mem)

theorem isNumeral_write (style : Decimal.Style) (d : Decimal) :
    ∀ c ∈ (d.write style).toList, isNumeral c = true := by
  have digits := isNumeral_toDigits d.digits
  have before (k : ℕ) : ∀ c ∈ (Nat.toDigits 10 d.digits).take k, isNumeral c = true :=
    fun c mem => digits c (List.mem_of_mem_take mem)
  have behind (k : ℕ) : ∀ c ∈ (Nat.toDigits 10 d.digits).drop k, isNumeral c = true :=
    fun c mem => digits c (List.mem_of_mem_drop mem)
  rw [Decimal.write]
  dsimp only
  split
  · split
    · rw [String.toList_ofList, List.forall_mem_append, List.forall_mem_append]
      exact ⟨⟨by simp [isNumeral], isNumeral_zeros _⟩, digits⟩
    · split
      · rw [String.toList_ofList, List.forall_mem_append, List.forall_mem_cons]
        exact ⟨before _, rfl, behind _⟩
      · rw [String.toList_ofList, List.forall_mem_append, List.forall_mem_append]
        exact ⟨⟨digits, isNumeral_zeros _⟩, by split <;> simp [isNumeral]⟩
  · rw [String.toList_ofList, List.forall_mem_append, List.forall_mem_append, List.forall_mem_cons]
    refine ⟨⟨?_, rfl, by split_ifs <;> simp [isNumeral]⟩, isNumeral_toDigits _⟩
    split
    · exact digits
    · rw [List.forall_mem_append, List.forall_mem_cons]
      exact ⟨before 1, rfl, behind 1⟩

theorem write_ne_nil (style : Decimal.Style) (d : Decimal) : (d.write style).toList ≠ [] := by
  have some_digit : Nat.toDigits 10 d.digits ≠ [] := Nat.toDigits_ne_nil
  rw [Decimal.write]
  dsimp only
  split_ifs <;> simp [some_digit]

theorem isNumeral_canonical (n : Number) : ∀ c ∈ n.canonical.toList, isNumeral c = true := by
  cases n with
  | integer n =>
    rw [Number.canonical, Int.toString_eq_repr, Int.repr_eq_if]
    split
    · simpa using isNumeral_toDigits n.toNat
    · rw [String.toList_append, List.forall_mem_append]
      exact ⟨by simp [isNumeral], by simpa using isNumeral_toDigits (-n).toNat⟩
  | float x =>
    rw [Number.canonical, Binary64.write]
    split
    · cases x.negative <;> simp [isNumeral, canonicalStyle]
    · rw [String.toList_append, List.forall_mem_append]
      exact ⟨by split <;> simp [isNumeral], isNumeral_write _ _⟩

theorem canonical_ne_nil (n : Number) : n.canonical.toList ≠ [] := by
  cases n with
  | integer n =>
    rw [Number.canonical, Int.toString_eq_repr, Int.repr_eq_if]
    split <;> simp
  | float x =>
    rw [Number.canonical, Binary64.write]
    split
    · cases x.negative <;> decide
    · rw [String.toList_append]
      exact List.append_ne_nil_of_right_ne_nil _ (write_ne_nil _ _)

theorem numeral_append_inj {ds es r s : List Char} (first : ∀ c ∈ ds, isNumeral c = true)
    (second : ∀ c ∈ es, isNumeral c = true) (hr : Ends r) (hs : Ends s)
    (same : ds ++ r = es ++ s) : ds = es ∧ r = s := by
  have stops {r : List Char} (hr : Ends r) : r.takeWhile isNumeral = [] := by
    cases r with
    | nil => rfl
    | cons c r =>
      have separates : c ∈ [',', ']', '}'] := hr c rfl
      have other : isNumeral c = false := by
        simp only [List.mem_cons, List.not_mem_nil, or_false] at separates
        rcases separates with rfl | rfl | rfl <;> rfl
      simp [other]
  have taken := congrArg (List.takeWhile isNumeral) same
  rw [List.takeWhile_append_of_pos first, List.takeWhile_append_of_pos second, stops hr, stops hs,
    List.append_nil, List.append_nil] at taken
  subst taken
  exact ⟨rfl, List.append_cancel_left same⟩

theorem quote_append_inj {a b : String} {r s : List Char}
    (same : (quote a).toList ++ r = (quote b).toList ++ s) : a = b ∧ r = s := by
  have read (a : String) (r : List Char) : ((quote a).toList ++ r).tail =
      a.toList.flatMap escapeChar ++ '"' :: r := by simp [quote]
  have body := congrArg (fun cs => stringBody cs.tail) same
  simp only [read, stringBody_quote, Option.some.injEq, Prod.mk.injEq] at body
  obtain ⟨units, rest⟩ := body
  have chars := List.map_injective_iff.2 (fun c d => Char.toNat_inj.1) units
  exact ⟨String.toList_inj.1 chars, rest⟩

theorem quote_inj {a b : String} (same : quote a = quote b) : a = b :=
  (quote_append_inj (r := []) (s := []) (by rw [same])).1

namespace Value

@[elab_as_elim]
theorem induct {motive : Value → Prop} (null : motive .null) (bool : ∀ b, motive (.bool b))
    (number : ∀ n, motive (.number n)) (string : ∀ s, motive (.string s))
    (array : ∀ vs, (∀ v ∈ vs, motive v) → motive (.array vs))
    (object : ∀ ms, (∀ m ∈ ms, motive m.2) → motive (.object ms)) : ∀ v, motive v :=
  @Value.rec motive (fun vs => ∀ v ∈ vs, motive v) (fun ms => ∀ m ∈ ms, motive m.2)
    (fun m => motive m.2) null bool number string array object
    (by simp)
    (fun v vs first others => List.forall_mem_cons.2 ⟨first, others⟩)
    (by simp)
    (fun m ms first others => List.forall_mem_cons.2 ⟨first, others⟩)
    (fun k v below => below)

mutual
/-- The text with the members as they are listed, and otherwise as in canonical text. -/
def inOrder : Value → String
  | .null => "null"
  | .bool true => "true"
  | .bool false => "false"
  | .number n => n.canonical
  | .string s => quote s
  | .array vs => "[" ++ ",".intercalate (inOrderItems vs) ++ "]"
  | .object ms => "\x7b" ++ ",".intercalate ((inOrderMembers ms).map Entry.text) ++ "\x7d"

def inOrderItems : List Value → List String
  | [] => []
  | v :: vs => inOrder v :: inOrderItems vs

def inOrderMembers : List (String × Value) → List Entry
  | [] => []
  | (k, v) :: ms => (quote k, inOrder v) :: inOrderMembers ms
end

theorem inOrderItems_eq_map (vs : List Value) : inOrderItems vs = vs.map inOrder := by
  induction vs with
  | nil => rfl
  | cons v vs ih => rw [inOrderItems, ih, List.map_cons]

theorem inOrderMembers_eq_map (ms : List (String × Value)) :
    inOrderMembers ms = ms.map fun m => (quote m.1, m.2.inOrder) := by
  induction ms with
  | nil => rfl
  | cons m ms ih => rw [inOrderMembers, ih, List.map_cons]

/-- Two values that list the same things in the same order. Numbers are the same if their canonical
texts are. -/
inductive Alike : Value → Value → Prop
  | null : Alike .null .null
  | bool (b : Bool) : Alike (.bool b) (.bool b)
  | number {m n : Number} (text : m.canonical = n.canonical) : Alike (.number m) (.number n)
  | string (s : String) : Alike (.string s) (.string s)
  | array {vs ws : List Value} (items : List.Forall₂ Alike vs ws) : Alike (.array vs) (.array ws)
  | object {ms ns : List (String × Value)} (names : ms.map Prod.fst = ns.map Prod.fst)
    (values : List.Forall₂ Alike (ms.map Prod.snd) (ns.map Prod.snd)) :
    Alike (.object ms) (.object ns)

theorem forall₂_members_iff {R : Value → Value → Prop} {ms ns : List (String × Value)} :
    List.Forall₂ (fun m n => m.1 = n.1 ∧ R m.2 n.2) ms ns ↔
      ms.map Prod.fst = ns.map Prod.fst ∧
        List.Forall₂ R (ms.map Prod.snd) (ns.map Prod.snd) := by
  induction ms generalizing ns with
  | nil => cases ns <;> simp
  | cons m ms ih =>
    cases ns with
    | nil => simp
    | cons n ns =>
      simp only [List.forall₂_cons, ih, List.map_cons, List.cons.injEq]
      exact and_and_and_comm

/-- The first character of the values of one form; numbers have no one first character. -/
def opening : Value → Option Char
  | .null => some 'n'
  | .bool true => some 't'
  | .bool false => some 'f'
  | .number _ => none
  | .string _ => some '"'
  | .array _ => some '['
  | .object _ => some '{'

theorem exists_opening (v : Value) : ∃ c cs, v.inOrder.toList = c :: cs ∧
    v.opening = if isNumeral c then none else some c := by
  cases v with
  | null => exact ⟨'n', _, rfl, rfl⟩
  | bool b => cases b with
    | true => exact ⟨'t', _, rfl, rfl⟩
    | false => exact ⟨'f', _, rfl, rfl⟩
  | number n =>
    obtain ⟨c, cs, text⟩ := List.exists_cons_of_ne_nil (canonical_ne_nil n)
    have numeral := isNumeral_canonical n c (by simp [text])
    exact ⟨c, cs, text, by rw [if_pos numeral]; rfl⟩
  | string s => exact ⟨'"', _, by rw [inOrder, quote, String.toList_ofList]; rfl, rfl⟩
  | array vs =>
    exact ⟨'[', _, by rw [inOrder, String.append_assoc, String.toList_append]; rfl, rfl⟩
  | object ms =>
    exact ⟨'{', _, by rw [inOrder, String.append_assoc, String.toList_append]; rfl, rfl⟩

theorem opening_eq {v w : Value} {r s : List Char}
    (same : v.inOrder.toList ++ r = w.inOrder.toList ++ s) : v.opening = w.opening := by
  obtain ⟨c, cs, text, opens⟩ := exists_opening v
  obtain ⟨d, ds, text', opens'⟩ := exists_opening w
  rw [text, text', List.cons_append, List.cons_append, List.cons.injEq] at same
  rw [opens, opens', same.1]

inductive SameForm : Value → Value → Prop
  | null : SameForm .null .null
  | bool (b : Bool) : SameForm (.bool b) (.bool b)
  | number (m n : Number) : SameForm (.number m) (.number n)
  | string (s t : String) : SameForm (.string s) (.string t)
  | array (vs ws : List Value) : SameForm (.array vs) (.array ws)
  | object (ms ns : List (String × Value)) : SameForm (.object ms) (.object ns)

theorem sameForm_of_opening {v w : Value} (h : v.opening = w.opening) : SameForm v w := by
  rcases v with _ | (_ | _) | _ | _ | _ | _ <;> rcases w with _ | (_ | _) | _ | _ | _ | _ <;>
    first | constructor | exact absurd h nofun

theorem intercalate_cons_append (t : List Char) (ts : List (List Char)) (rest : List Char) :
    [','].intercalate (t :: ts) ++ rest =
      t ++ if ts = [] then rest else ',' :: ([','].intercalate ts ++ rest) := by
  cases ts with
  | nil => simp
  | cons u us => simp [List.intercalate_cons_cons]

/-- A list between commas is read off its text entry by entry, if the text of each entry tells the
entry and where it ends. -/
theorem forall₂_of_intercalate {α : Type} {R : α → α → Prop} {text : α → List Char} {close : Char}
    {as bs : List α} {r s : List Char} (closes : close = ']' ∨ close = '}')
    (opens : ∀ a, ∃ c cs, text a = c :: cs ∧ c ≠ close)
    (each : ∀ a ∈ as, ∀ b r s, Ends r → Ends s → text a ++ r = text b ++ s → R a b ∧ r = s)
    (same : [','].intercalate (as.map text) ++ close :: r =
      [','].intercalate (bs.map text) ++ close :: s) : List.Forall₂ R as bs ∧ r = s := by
  have notComma : close ≠ ',' := by rcases closes with rfl | rfl <;> decide
  have ends (ts : List (List Char)) (r : List Char) :
      Ends (if ts = [] then close :: r else ',' :: ([','].intercalate ts ++ close :: r)) := by
    split
    · rintro c ⟨⟩
      rcases closes with rfl | rfl <;> decide
    · rintro c ⟨⟩
      decide
  induction as generalizing bs with
  | nil =>
    cases bs with
    | nil => exact ⟨.nil, by simpa using same⟩
    | cons b bs =>
      obtain ⟨c, cs, first, other⟩ := opens b
      rw [List.map_cons, intercalate_cons_append, first] at same
      exact absurd (by simpa using congrArg List.head? same.symm) other
  | cons a as ih =>
    cases bs with
    | nil =>
      obtain ⟨c, cs, first, other⟩ := opens a
      rw [List.map_cons, intercalate_cons_append, first] at same
      exact absurd (by simpa using congrArg List.head? same) other
    | cons b bs =>
      rw [List.map_cons, List.map_cons, intercalate_cons_append, intercalate_cons_append] at same
      obtain ⟨entry, others⟩ := each a List.mem_cons_self b _ _ (ends _ _) (ends _ _) same
      simp only [List.map_eq_nil_iff] at others
      split_ifs at others with h h' h'
      · subst h h'
        exact ⟨.cons entry .nil, (List.cons.inj others).2⟩
      · exact absurd (List.cons.inj others).1 notComma
      · exact absurd (List.cons.inj others).1.symm notComma
      · obtain ⟨rest, after⟩ := ih (fun a mem => each a (.tail _ mem)) (List.cons.inj others).2
        exact ⟨.cons entry rest, after⟩

def memberText (m : String × Value) : List Char :=
  (quote m.1).toList ++ ':' :: m.2.inOrder.toList

theorem inOrder_array_append (vs : List Value) (r : List Char) :
    (inOrder (.array vs)).toList ++ r =
      '[' :: ([','].intercalate (vs.map fun v => v.inOrder.toList) ++ ']' :: r) := by
  simp [inOrder, inOrderItems_eq_map, String.toList_intercalate, Function.comp_def]

theorem inOrder_object_append (ms : List (String × Value)) (r : List Char) :
    (inOrder (.object ms)).toList ++ r =
      '{' :: ([','].intercalate (ms.map memberText) ++ '}' :: r) := by
  have text : (fun m : String × Value => (Entry.text (quote m.1, m.2.inOrder)).toList) =
      memberText := by
    funext m
    simp [Entry.text, memberText]
  simp [inOrder, inOrderMembers_eq_map, String.toList_intercalate, Function.comp_def, text]

/-- The text of a value tells the value and where it ends. -/
def Legible (v : Value) : Prop :=
  ∀ w r s, Ends r → Ends s → v.inOrder.toList ++ r = w.inOrder.toList ++ s → Alike v w ∧ r = s

theorem legible_array {vs : List Value} (each : ∀ v ∈ vs, Legible v) : Legible (.array vs) := by
  intro w r s _ _ same
  cases sameForm_of_opening (opening_eq same) with
  | array vs ws =>
    rw [inOrder_array_append, inOrder_array_append, List.cons.injEq] at same
    have opens (v : Value) : ∃ c cs, v.inOrder.toList = c :: cs ∧ c ≠ ']' := by
      obtain ⟨c, cs, text, opens⟩ := exists_opening v
      refine ⟨c, cs, text, ?_⟩
      rintro rfl
      rw [if_neg (by decide)] at opens
      rcases v with _ | (_ | _) | _ | _ | _ | _ <;> exact absurd opens nofun
    obtain ⟨items, rest⟩ := forall₂_of_intercalate (.inl rfl) opens each same.2
    exact ⟨.array items, rest⟩

theorem legible_object {ms : List (String × Value)} (each : ∀ m ∈ ms, Legible m.2) :
    Legible (.object ms) := by
  intro w r s _ _ same
  cases sameForm_of_opening (opening_eq same) with
  | object ms ns =>
    rw [inOrder_object_append, inOrder_object_append, List.cons.injEq] at same
    have opens (m : String × Value) : ∃ c cs, memberText m = c :: cs ∧ c ≠ '}' :=
      ⟨'"', _, by rw [memberText, quote, String.toList_ofList]; rfl, by decide⟩
    have member (m : String × Value) (mem : m ∈ ms) (n : String × Value) (r s : List Char)
        (hr : Ends r) (hs : Ends s) (same : memberText m ++ r = memberText n ++ s) :
        (m.1 = n.1 ∧ Alike m.2 n.2) ∧ r = s := by
      simp only [memberText, List.append_assoc, List.cons_append] at same
      obtain ⟨name, rest⟩ := quote_append_inj same
      obtain ⟨value, rest⟩ := each m mem n.2 r s hr hs (List.cons.inj rest).2
      exact ⟨⟨name, value⟩, rest⟩
    obtain ⟨members, rest⟩ := forall₂_of_intercalate (.inr rfl) opens member same.2
    obtain ⟨names, values⟩ := forall₂_members_iff.1 members
    exact ⟨.object names values, rest⟩

theorem legible (v : Value) : Legible v := by
  induction v using induct with
  | null =>
    intro w r s _ _ same
    cases sameForm_of_opening (opening_eq same) with
    | null => exact ⟨.null, List.append_cancel_left same⟩
  | bool b =>
    intro w r s _ _ same
    cases sameForm_of_opening (opening_eq same) with
    | bool b => exact ⟨.bool b, List.append_cancel_left same⟩
  | number n =>
    intro w r s hr hs same
    cases sameForm_of_opening (opening_eq same) with
    | number _ n' =>
      obtain ⟨text, rest⟩ := numeral_append_inj (isNumeral_canonical n) (isNumeral_canonical n')
        hr hs same
      exact ⟨.number (String.toList_inj.1 text), rest⟩
  | string s =>
    intro w r s' _ _ same
    cases sameForm_of_opening (opening_eq same) with
    | string s t =>
      obtain ⟨rfl, rest⟩ := quote_append_inj same
      exact ⟨.string _, rest⟩
  | array vs each => exact legible_array each
  | object ms each => exact legible_object each

theorem alike_of_inOrder_eq {v w : Value} (same : v.inOrder = w.inOrder) : Alike v w :=
  (legible v w [] [] ends_nil ends_nil (by rw [same])).1

/-! ### Sorted members -/

mutual
/-- The value with the members of each object sorted by their names. -/
def arrange (le : String → String → Bool) : Value → Value
  | .null => .null
  | .bool b => .bool b
  | .number n => .number n
  | .string s => .string s
  | .array vs => .array (arrangeItems le vs)
  | .object ms => .object ((arrangeMembers le ms).mergeSort fun m n => le m.1 n.1)

def arrangeItems (le : String → String → Bool) : List Value → List Value
  | [] => []
  | v :: vs => arrange le v :: arrangeItems le vs

def arrangeMembers (le : String → String → Bool) : List (String × Value) → List (String × Value)
  | [] => []
  | (k, v) :: ms => (k, arrange le v) :: arrangeMembers le ms
end

variable (le : String → String → Bool)

theorem arrange_array (vs : List Value) :
    arrange le (.array vs) = .array (vs.map (arrange le)) := by
  rw [arrange]
  congr
  induction vs with
  | nil => rfl
  | cons v vs ih => rw [arrangeItems, ih, List.map_cons]

theorem arrangeMembers_eq_map (ms : List (String × Value)) :
    arrangeMembers le ms = ms.map fun m => (m.1, m.2.arrange le) := by
  induction ms with
  | nil => rfl
  | cons m ms ih => rw [arrangeMembers, ih, List.map_cons]

theorem arrange_object (ms : List (String × Value)) : arrange le (.object ms) =
    .object ((ms.mergeSort fun m n => le m.1 n.1).map fun m => (m.1, m.2.arrange le)) := by
  rw [arrange, arrangeMembers_eq_map, List.map_mergeSort]
  exact fun _ _ _ _ => rfl

def writtenLe (k l : String) : Bool := quote k ≤ quote l

theorem canonicalItems_eq_map (vs : List Value) : canonicalItems vs = vs.map canonical := by
  induction vs with
  | nil => rfl
  | cons v vs ih => rw [canonicalItems, ih, List.map_cons]

theorem canonicalMembers_eq_map (ms : List (String × Value)) :
    canonicalMembers ms = ms.map fun m => (quote m.1, m.2.canonical) := by
  induction ms with
  | nil => rfl
  | cons m ms ih => rw [canonicalMembers, ih, List.map_cons]

theorem canonical_eq_inOrder (v : Value) : v.canonical = (v.arrange writtenLe).inOrder := by
  induction v using induct with
  | null => rfl
  | bool b => cases b <;> rfl
  | number n => rfl
  | string s => rfl
  | array vs each =>
    have items : canonicalItems vs = (vs.map (arrange writtenLe)).map inOrder := by
      rw [canonicalItems_eq_map, List.map_map]
      exact List.map_congr_left each
    rw [arrange_array, canonical, inOrder, inOrderItems_eq_map, items]
  | object ms each =>
    have entries : inOrderMembers ((arrangeMembers writtenLe ms).mergeSort fun m n =>
        writtenLe m.1 n.1) = (canonicalMembers ms).mergeSort Entry.le := by
      have written : (arrangeMembers writtenLe ms).map (fun m => (quote m.1, m.2.inOrder)) =
          canonicalMembers ms := by
        rw [arrangeMembers_eq_map, canonicalMembers_eq_map, List.map_map]
        exact List.map_congr_left fun m mem => by simp [each m mem]
      rw [inOrderMembers_eq_map, ← written, List.map_mergeSort]
      exact fun _ _ _ _ => rfl
    rw [arrange, canonical, inOrder, entries]

end Value
end CredentialSchema.Json

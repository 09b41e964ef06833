import CredentialSchema.Proofs.Lists
import CredentialSchema.Proofs.Text.Case
import CredentialSchema.Proofs.Text.Trim
import CredentialSchema.Vocabulary.ValueType

/-!
Spellings of value types. Whatever the mixture of array spellings around a text, as many levels come
off it as were put around; where a start and an end compete for the same text, the start comes off
first. How words are written and joined does not matter, nor do blanks around.
-/
namespace CredentialSchema

namespace Shape

/-- The kind and format of each level, the outermost first. -/
def outline : Shape → List (Kind × Option String)
  | .scalar kind format => [(kind, format)]
  | .listOf element => ((listOf element).kind, (listOf element).format) :: element.outline

theorem outline_nest (count : Nat) (s : Shape) :
    (nest count s).outline = List.replicate count (.array, none) ++ s.outline := by
  induction count with
  | zero => rfl
  | succ count ih =>
    rw [nest, outline, ih]
    rfl

end Shape

namespace ValueType

open Text (isBlank StartsClear EndsClear Trimmed)

variable {c d : Char} {cs n start ending rest inner : List Char}

section NormalForm

theorem normalChar_of_ne (h : c ≠ '_') (h' : c ≠ ' ') : normalChar c = c.toLower := by
  simp [normalChar, h, h']

theorem normalChar_toLower (c : Char) : normalChar c.toLower = normalChar c := by
  by_cases capital : c.isUpper = true
  · have ne {d : Char} (h : d.isUpper = false) (h' : d.isLower = false) :
        c ≠ d ∧ c.toLower ≠ d := by
      refine ⟨?_, ?_⟩ <;> rintro rfl
      · rw [capital] at h
        contradiction
      · rw [Text.isLower_toLower capital] at h'
        contradiction
    obtain ⟨line, line'⟩ := @ne '_' rfl rfl
    obtain ⟨space, space'⟩ := @ne ' ' rfl rfl
    rw [normalChar_of_ne line' space', normalChar_of_ne line space, Char.toLower_toLower_eq_toLower]
  · rw [Char.toLower_eq_of_not_isUpper capital]

theorem normalChar_normalChar (c : Char) : normalChar (normalChar c) = normalChar c := by
  by_cases joint : c = '_' ∨ c = ' '
  · rcases joint with rfl | rfl <;> rfl
  · rw [not_or] at joint
    rw [normalChar_of_ne joint.1 joint.2, normalChar_toLower, normalChar_of_ne joint.1 joint.2]

theorem isBlank_normalChar (h : isBlank c = false) : isBlank (normalChar c) = false := by
  rw [normalChar]
  split
  · rfl
  · rwa [Text.isBlank_toLower]

theorem normalize_eq (h : Trimmed cs) : normalize cs = cs.map normalChar := by
  rw [normalize, h.trimChars_eq]

theorem trimmed_normalize (cs : List Char) : Trimmed (normalize cs) :=
  (Text.trimmed_trimChars cs).map fun _ => isBlank_normalChar

theorem normalize_normalize (cs : List Char) : normalize (normalize cs) = normalize cs := by
  rw [normalize_eq (trimmed_normalize cs), normalize, List.map_map]
  exact List.map_congr_left fun c _ => normalChar_normalChar c

theorem length_normalize_le (cs : List Char) : (normalize cs).length ≤ cs.length := by
  obtain ⟨a, b, -, -, split⟩ := Text.exists_trimChars cs
  have whole := congrArg List.length split
  rw [List.length_append, List.length_append] at whole
  rw [normalize, List.length_map]
  omega

end NormalForm

section Element

theorem afterStart?_eq_some_iff : afterStart? start cs = some rest ↔ start ++ rest = cs := by
  rw [afterStart?]
  split
  · next found =>
    have split := List.prefix_iff_eq_append.1 (List.isPrefixOf_iff_prefix.1 found)
    rw [Option.some.injEq]
    exact ⟨fun same => same ▸ split, fun same => List.append_cancel_left (split.trans same.symm)⟩
  · next missing =>
    refine ⟨nofun, fun same => absurd ?_ missing⟩
    exact List.isPrefixOf_iff_prefix.2 ⟨rest, same⟩

theorem beforeEnd?_eq_some_iff : beforeEnd? ending cs = some rest ↔ rest ++ ending = cs := by
  rw [beforeEnd?]
  split
  · next found =>
    have split := List.suffix_iff_eq_append.1 (List.isSuffixOf_iff_suffix.1 found)
    rw [Option.some.injEq]
    exact ⟨fun same => same ▸ split, fun same => List.append_cancel_right (split.trans same.symm)⟩
  · next missing =>
    refine ⟨nofun, fun same => absurd ?_ missing⟩
    exact List.isSuffixOf_iff_suffix.2 ⟨rest, same⟩

def afterOf? (cs : List Char) : Option (List Char) :=
  (afterStart? "array-of-".toList cs).or (afterStart? "list-of-".toList cs)

def betweenAngles? (cs : List Char) : Option (List Char) :=
  (afterStart? "array<".toList cs).bind (beforeEnd? ['>'])

theorem element?_eq (cs : List Char) :
    element? cs = ((afterOf? cs).or (betweenAngles? cs)).or (beforeEnd? "[]".toList cs) := by
  simp only [element?, afterOf?, betweenAngles?, Option.or_assoc]

theorem length_of_element? (h : element? cs = some inner) : inner.length < cs.length := by
  simp only [element?, Option.or_eq_some_iff, Option.bind_eq_some_iff, afterStart?_eq_some_iff,
    beforeEnd?_eq_some_iff] at h
  rcases h with rfl | ⟨-, rfl | ⟨-, ⟨rest, rfl, rfl⟩ | ⟨-, rfl⟩⟩⟩ <;> simp +arith

theorem afterStart?_append (apart : ∀ c ∈ ending.head?, c ∉ start) (n : List Char) :
    afterStart? start (n ++ ending) = (afterStart? start n).map (· ++ ending) := by
  ext rest
  rw [afterStart?_eq_some_iff, Option.map_eq_some_iff, List.append_eq_append_iff]
  constructor
  · rintro (⟨m, rfl, rfl⟩ | ⟨m, rfl, same⟩)
    · exact ⟨m, afterStart?_eq_some_iff.2 rfl, rfl⟩
    · cases m with
      | nil => exact ⟨[], afterStart?_eq_some_iff.2 (by simp), by simpa using same⟩
      | cons c m =>
        refine absurd ?_ (apart c ?_)
        · simp
        · rw [same]
          rfl
  · rintro ⟨m, found, rfl⟩
    exact .inl ⟨m, (afterStart?_eq_some_iff.1 found).symm, rfl⟩

theorem append_of_afterOf? (h : afterOf? cs = some rest) : ∃ start, start ++ rest = cs := by
  rw [afterOf?, Option.or_eq_some_iff, afterStart?_eq_some_iff, afterStart?_eq_some_iff] at h
  exact h.elim (⟨_, ·⟩) fun ⟨_, found⟩ => ⟨_, found⟩

theorem afterOf?_brackets (n : List Char) :
    afterOf? (n ++ "[]".toList) = (afterOf? n).map (· ++ "[]".toList) := by
  rw [afterOf?, afterStart?_append (by simp), afterStart?_append (by simp), afterOf?]
  cases afterStart? "array-of-".toList n <;> rfl

theorem betweenAngles?_brackets (n : List Char) : betweenAngles? (n ++ "[]".toList) = none := by
  rw [Option.eq_none_iff_forall_ne_some]
  intro inner found
  simp only [betweenAngles?, Option.bind_eq_some_iff, afterStart?_eq_some_iff,
    beforeEnd?_eq_some_iff] at found
  obtain ⟨rest, same, rfl⟩ := found
  have last := congrArg List.getLast? same
  simp [List.getLast?_append, List.getLast?_cons] at last

theorem element?_brackets (n : List Char) :
    element? (n ++ "[]".toList) = some ((afterOf? n).elim n (· ++ "[]".toList)) := by
  have bare : beforeEnd? "[]".toList (n ++ "[]".toList) = some n := beforeEnd?_eq_some_iff.2 rfl
  rw [element?_eq, afterOf?_brackets, betweenAngles?_brackets, bare]
  cases afterOf? n <;> rfl

end Element

section Recursion

theorem shapeOf_enough (fuel fuel' : Nat) (cs : List Char) (enough : cs.length ≤ fuel)
    (enough' : cs.length ≤ fuel') : shapeOf fuel cs = shapeOf fuel' cs := by
  induction fuel generalizing fuel' cs with
  | zero =>
    obtain rfl : cs = [] := List.length_eq_zero_iff.1 (Nat.le_zero.1 enough)
    cases fuel' <;> rfl
  | succ fuel ih =>
    cases fuel' with
    | zero =>
      obtain rfl : cs = [] := List.length_eq_zero_iff.1 (Nat.le_zero.1 enough')
      rfl
    | succ fuel' =>
      rw [shapeOf, shapeOf]
      cases found : element? (normalize cs) with
      | none => rfl
      | some inner =>
        have shorter := length_of_element? found
        have bound := length_normalize_le cs
        exact congrArg Shape.listOf (ih fuel' inner (by omega) (by omega))

theorem shape_eq (v : String) :
    shape v = match element? (normalize v.toList) with
      | some inner => .listOf (shape (.ofList inner))
      | none => word (normalize v.toList) := by
  have one_more := shapeOf_enough v.length (v.length + 1) v.toList
    (le_of_eq String.length_toList) (String.length_toList.trans_le (Nat.le_succ _))
  rw [shape, one_more, shapeOf]
  cases found : element? (normalize v.toList) with
  | none => rfl
  | some inner =>
    have shorter := length_of_element? found
    have bound := length_normalize_le v.toList
    rw [String.length_toList] at bound
    have enough := shapeOf_enough v.length inner.length inner (by omega) le_rfl
    have level : shapeOf v.length inner = shape (.ofList inner) := by
      rw [enough, shape, String.toList_ofList, String.length_ofList]
    exact congrArg Shape.listOf level

theorem shape_congr {v w : String} (same : normalize v.toList = normalize w.toList) :
    shape v = shape w := by
  rw [shape_eq v, same, ← shape_eq w]

theorem shape_normalize (v : String) : shape (.ofList (normalize v.toList)) = shape v :=
  shape_congr (by rw [String.toList_ofList, normalize_normalize])

theorem normalize_brackets (h : EndsClear cs) :
    normalize (cs ++ "[]".toList) = normalize cs ++ "[]".toList := by
  have closed : Trimmed "[]".toList := ⟨by decide, by decide⟩
  rw [normalize, Text.trimChars_append_trimmed h closed, List.map_append, ← normalize]
  rfl

theorem shape_brackets (h : EndsClear cs) :
    shape (.ofList (cs ++ "[]".toList)) = .listOf (shape (.ofList cs)) := by
  -- A start comes off before the brackets do and leaves them on a shorter text.
  induction size : cs.length using Nat.strong_induction_on generalizing cs with
  | _ size ih =>
    rw [shape_eq, String.toList_ofList, normalize_brackets h, element?_brackets]
    cases found : afterOf? (normalize cs) with
    | none =>
      have normal := shape_normalize (.ofList cs)
      rw [String.toList_ofList] at normal
      exact congrArg Shape.listOf normal
    | some rest =>
      have spelled : element? (normalize cs) = some rest := by
        rw [element?_eq, found, Option.some_or, Option.some_or]
      have shorter := length_of_element? spelled
      have bound := length_normalize_le cs
      have clear : EndsClear rest := (append_of_afterOf? found).elim fun start split =>
        Text.EndsClear.of_append (split ▸ (trimmed_normalize cs).finish)
      have whole : shape (.ofList cs) = .listOf (shape (.ofList rest)) := by
        rw [shape_eq, String.toList_ofList, spelled]
      rw [whole]
      exact congrArg Shape.listOf (ih rest.length (by omega) clear rfl)

end Recursion

inductive Spelling
  | arrayOf
  | listOf
  | angles
  | brackets
deriving DecidableEq, Repr

namespace Spelling

def opening : Spelling → String
  | .arrayOf => "array-of-"
  | .listOf => "list-of-"
  | .angles => "array<"
  | .brackets => ""

def closing : Spelling → String
  | .angles => ">"
  | .brackets => "[]"
  | _ => ""

theorem element?_spelled (k : Spelling) (ne : k ≠ .brackets) (n : List Char) :
    element? (k.opening.toList ++ n ++ k.closing.toList) = some n := by
  cases k with
  | arrayOf =>
    change element? ("array-of-".toList ++ n ++ []) = some n
    have found : afterStart? "array-of-".toList ("array-of-".toList ++ n ++ []) = some n :=
      afterStart?_eq_some_iff.2 (List.append_nil _).symm
    rw [element?, found, Option.some_or]
  | listOf =>
    change element? ("list-of-".toList ++ n ++ []) = some n
    have missing : afterStart? "array-of-".toList ("list-of-".toList ++ n ++ []) = none := rfl
    have found : afterStart? "list-of-".toList ("list-of-".toList ++ n ++ []) = some n :=
      afterStart?_eq_some_iff.2 (List.append_nil _).symm
    rw [element?, missing, found, Option.none_or, Option.some_or]
  | angles =>
    change element? ("array<".toList ++ n ++ ['>']) = some n
    have missing : afterOf? ("array<".toList ++ n ++ ['>']) = none := rfl
    have found : betweenAngles? ("array<".toList ++ n ++ ['>']) = some n := by
      rw [betweenAngles?, List.append_assoc, afterStart?_eq_some_iff.2 rfl]
      exact beforeEnd?_eq_some_iff.2 rfl
    rw [element?_eq, missing, found, Option.none_or, Option.some_or]
  | brackets => exact absurd rfl ne

end Spelling

/-- The first character may be written for the second: a letter in either case, an underscore or a
space for a hyphen. -/
def Spells (c d : Char) : Prop := c.toLower = d.toLower ∨ d = '-' ∧ (c = '_' ∨ c = ' ')

theorem Spells.normalChar_eq (h : Spells c d) : normalChar c = normalChar d := by
  rcases h with same | ⟨rfl, rfl | rfl⟩
  · rw [← normalChar_toLower, same, normalChar_toLower]
  · rfl
  · rfl

theorem Spells.isBlank_eq (h : Spells c d) (ne : d ≠ '-') : isBlank c = isBlank d := by
  rcases h with same | ⟨hyphen, -⟩
  · rw [← Text.isBlank_toLower, same, Text.isBlank_toLower]
  · exact absurd hyphen ne

/-- One array level as it is written around a text. -/
structure Wrapper where
  spelling : Spelling
  opening : String
  spells : List.Forall₂ Spells opening.toList spelling.opening.toList

namespace Wrapper

def around (w : Wrapper) (s : String) : String := w.opening ++ s ++ w.spelling.closing

variable (w : Wrapper) {s : String}

theorem map_opening : w.opening.toList.map normalChar = w.spelling.opening.toList := by
  have normal : w.spelling.opening.toList.map normalChar = w.spelling.opening.toList := by
    cases w.spelling <;> decide
  rw [← normal, map_eq_map_iff_forall₂]
  exact w.spells.imp fun _ _ => Spells.normalChar_eq

theorem startsClear_opening : StartsClear w.opening.toList := by
  have first : ∀ d ∈ w.spelling.opening.toList.head?, d ≠ '-' ∧ isBlank d = false := by
    cases w.spelling <;> simp [Spelling.opening] <;> decide
  intro c begins
  obtain ⟨cs, split⟩ := List.head?_eq_some_iff.1 begins
  have spells := w.spells
  rw [split] at spells
  cases split' : w.spelling.opening.toList with
  | nil =>
    rw [split'] at spells
    nomatch spells
  | cons d ds =>
    rw [split', List.forall₂_cons] at spells
    obtain ⟨ne, clear⟩ := first d (by rw [split']; rfl)
    rw [spells.1.isBlank_eq ne, clear]

theorem trimmed_closing : Trimmed w.spelling.closing.toList := by
  constructor <;> cases w.spelling <;> decide

theorem toList_around :
    (w.around s).toList = w.opening.toList ++ s.toList ++ w.spelling.closing.toList := by
  rw [around, String.toList_append, String.toList_append]

variable (filled : s ≠ "") (trimmed : Trimmed s.toList)

include filled in
theorem around_ne_empty : w.around s ≠ "" := by
  rw [Ne, ← String.toList_eq_nil_iff, toList_around]
  simp [filled]

include filled trimmed in
theorem trimmed_around : Trimmed (w.around s).toList := by
  have filled' : s.toList ≠ [] := mt String.toList_eq_nil_iff.1 filled
  have closing := w.trimmed_closing
  rw [toList_around]
  refine ⟨(w.startsClear_opening.append trimmed.start).append closing.start, ?_⟩
  exact (trimmed.finish.append_left filled').append closing.finish

include filled trimmed in
theorem normalize_around : normalize (w.around s).toList =
    w.spelling.opening.toList ++ normalize s.toList ++ w.spelling.closing.toList := by
  have closing : w.spelling.closing.toList.map normalChar = w.spelling.closing.toList := by
    cases w.spelling <;> decide
  rw [normalize_eq (w.trimmed_around filled trimmed), toList_around, List.map_append,
    List.map_append, map_opening, closing, normalize_eq trimmed]

include filled trimmed in
theorem shape_around : shape (w.around s) = .listOf (shape s) := by
  have normal := w.normalize_around filled trimmed
  rw [← shape_normalize s]
  by_cases spelling : w.spelling = .brackets
  · rw [← shape_normalize (w.around s), normal, spelling]
    exact shape_brackets (trimmed_normalize s.toList).finish
  · rw [shape_eq, normal, w.spelling.element?_spelled spelling]

end Wrapper

/-- A text inside some array levels, the outermost first. -/
def wrap (ws : List Wrapper) (s : String) : String := ws.foldr Wrapper.around s

section Wrap

variable {s : String} (filled : s ≠ "") (trimmed : Trimmed s.toList)

include filled trimmed

theorem trimmed_wrap (ws : List Wrapper) : wrap ws s ≠ "" ∧ Trimmed (wrap ws s).toList := by
  induction ws with
  | nil => exact ⟨filled, trimmed⟩
  | cons w ws ih => exact ⟨w.around_ne_empty ih.1, w.trimmed_around ih.1 ih.2⟩

theorem shape_wrap (ws : List Wrapper) : shape (wrap ws s) = .nest ws.length (shape s) := by
  induction ws with
  | nil => rfl
  | cons w ws ih =>
    obtain ⟨filled', trimmed'⟩ := trimmed_wrap filled trimmed ws
    exact (w.shape_around filled' trimmed').trans (congrArg Shape.listOf ih)

end Wrap

/-- Texts that differ only in how they are written: in the case of letters, in an underscore or an
inner space for a hyphen, in the blanks around. -/
inductive Respelled : String → String → Prop
  | symm {v w : String} : Respelled v w → Respelled w v
  | trans {u v w : String} : Respelled u v → Respelled v w → Respelled u w
  | letters {v w : String} : v.toLower = w.toLower → Respelled v w
  | underscore (a b : String) : Respelled (a ++ "_" ++ b) (a ++ "-" ++ b)
  | space {a b : String} : Text.isBlankText a = false → Text.isBlankText b = false →
    Respelled (a ++ " " ++ b) (a ++ "-" ++ b)
  | blanks {a b : String} (v : String) : Text.isBlankText a = true → Text.isBlankText b = true →
    Respelled (a ++ v ++ b) v

section Writing

variable {a b : List Char}

theorem normalize_map {f : Char → Char} (blank : ∀ c, isBlank (f c) = isBlank c)
    (normal : ∀ c, normalChar (f c) = normalChar c) (cs : List Char) :
    normalize (cs.map f) = normalize cs := by
  rw [normalize, Text.trimChars_map blank, List.map_map, normalize]
  exact List.map_congr_left fun c _ => normal c

def joint (c : Char) : Char := if c = '_' then '-' else c

theorem joint_of_ne (h : c ≠ '_') : joint c = c := if_neg h

theorem isBlank_joint (c : Char) : isBlank (joint c) = isBlank c := by
  rcases eq_or_ne c '_' with rfl | other
  · rfl
  · rw [joint_of_ne other]

theorem normalChar_joint (c : Char) : normalChar (joint c) = normalChar c := by
  rcases eq_or_ne c '_' with rfl | other
  · rfl
  · rw [joint_of_ne other]

theorem normalize_underscore (a b : List Char) :
    normalize (a ++ ['_'] ++ b) = normalize (a ++ ['-'] ++ b) := by
  have same : (a ++ ['_'] ++ b).map joint = (a ++ ['-'] ++ b).map joint := by
    simp only [List.map_append]
    rfl
  rw [← normalize_map isBlank_joint normalChar_joint, same,
    normalize_map isBlank_joint normalChar_joint]

theorem normalize_space (filled : a.all isBlank = false) (filled' : b.all isBlank = false) :
    normalize (a ++ [' '] ++ b) = normalize (a ++ ['-'] ++ b) := by
  obtain ⟨a', b', kept⟩ := Text.exists_trimChars_between filled filled'
  rw [normalize, normalize, kept, kept]
  simp only [List.map_append]
  rfl

end Writing

theorem Respelled.normalize_eq {v w : String} (h : Respelled v w) :
    normalize v.toList = normalize w.toList := by
  induction h with
  | symm _ ih => exact ih.symm
  | trans _ _ ih ih' => exact ih.trans ih'
  | letters same =>
    have lower (s : String) : normalize s.toLower.toList = normalize s.toList := by
      rw [String.toLower, String.toList_map, normalize_map Text.isBlank_toLower normalChar_toLower]
    rw [← lower, same, lower]
  | underscore a b =>
    simp only [String.toList_append]
    exact normalize_underscore _ _
  | space filled filled' =>
    simp only [String.toList_append]
    exact normalize_space filled filled'
  | blanks v blank blank' =>
    simp only [String.toList_append]
    rw [normalize, Text.trimChars_padded blank blank', normalize]

/-- The levels of a value type come off one by one, each leaving a shorter text, until a word is
left. Whatever levels are put around a text, in whatever spellings and order, it has them all
outside its own, as lists without a format. How a text is written makes no difference. -/
theorem shape_spellings :
    (∀ v : String, match element? (normalize v.toList) with
      | some inner => inner.length < v.length ∧ shape v = .listOf (shape (.ofList inner))
      | none => shape v = word (normalize v.toList)) ∧
    (∀ s : String, s ≠ "" → Trimmed s.toList → ∀ ws : List Wrapper,
      shape (wrap ws s) = .nest ws.length (shape s) ∧
        (shape (wrap ws s)).outline =
          List.replicate ws.length (.array, none) ++ (shape s).outline) ∧
    ∀ v w : String, Respelled v w → shape v = shape w := by
  refine ⟨fun v => ?_, fun s filled trimmed ws => ?_,
    fun v w same => shape_congr same.normalize_eq⟩
  · have level := shape_eq v
    cases found : element? (normalize v.toList) with
    | none =>
      rw [found] at level
      exact level
    | some inner =>
      rw [found] at level
      have shorter := (length_of_element? found).trans_le (length_normalize_le v.toList)
      rw [String.length_toList] at shorter
      exact ⟨shorter, level⟩
  · rw [shape_wrap filled trimmed]
    exact ⟨rfl, Shape.outline_nest _ _⟩

theorem shape_spellings_mixed :
    let ws : List Wrapper :=
      [⟨.brackets, "", .nil⟩, ⟨.listOf, "LIST_of ", by simp [Spells, Spelling.opening]⟩,
        ⟨.angles, "Array<", by simp [Spells, Spelling.opening]⟩,
        ⟨.arrayOf, "array OF_", by simp [Spells, Spelling.opening]⟩]
    wrap ws "Date_Time" = "LIST_of Array<array OF_Date_Time>[]" ∧
      "Date_Time" ≠ "" ∧ Trimmed "Date_Time".toList ∧
      shape (wrap ws "Date_Time") = .nest 4 (.scalar .string (some "date-time")) ∧
      Respelled "  date time" "date-time" ∧ shape "  date time" = shape "date-time" := by
  intro ws
  obtain ⟨-, wrapped, respelled⟩ := shape_spellings
  have filled : "Date_Time" ≠ "" := by decide
  have trimmed : Trimmed "Date_Time".toList := ⟨by decide, by decide⟩
  have word : shape "Date_Time" = .scalar .string (some "date-time") := by decide +kernel
  have same : Respelled "  date time" "date-time" :=
    .trans (.blanks "date time" (a := "  ") (b := "") (by decide) (by decide))
      (.space (a := "date") (b := "time") (by decide) (by decide))
  refine ⟨by decide, filled, trimmed, ?_, same, respelled _ _ same⟩
  rw [← word]
  exact (wrapped "Date_Time" filled trimmed ws).1

end ValueType
end CredentialSchema

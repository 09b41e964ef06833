import CredentialSchema.Proofs.Text.Trim
import CredentialSchema.Proofs.Url.Extension
import CredentialSchema.Url.Context

/-!
Which categories share a context URL. Of a category the URL shows all but tabs and line breaks, and
nothing if it is exactly a dot or a double dot; whatever else is shown tells categories apart, as
long as no double dot climbs. A double dot with a tab or line break in it is not passed over: it
takes the segment before it away, so as the first part of a leaf it takes the category.
-/
namespace CredentialSchema

namespace ContextUrl

open Url (arriving descend kept withoutBreaks segmentText)

/-- What a URL shows of a category: one text, or none. -/
def shown (category : Option String) : List String := arriving (trimmed category).toList

/-- What arrives below the category. -/
def leaf (title : String) (credentialName : Option String) : List String :=
  arriving (segments title none credentialName)

/-- What stays of the namespace and a category once the first part of the leaf arrives. -/
def stays (u : Url) (title : String) (credentialName category : Option String) : List String :=
  kept ((shown category).foldl (descend u.isSpecial) u.openSegments)
    (leaf title credentialName).head?

/-- A category without tabs and line breaks that is no dot or double dot, or none at all. -/
def Plain (category : Option String) : Prop :=
  ∀ t ∈ trimmed category, t ≠ "." ∧ t ≠ ".." ∧ ∀ c ∈ t.toList, Url.isTabOrNewline c = false

variable {category category' : Option String}

theorem arriving_segments (title : String) (category credentialName : Option String) :
    arriving (segments title category credentialName) =
      shown category ++ leaf title credentialName := by
  have split : segments title category credentialName =
      (trimmed category).toList ++ segments title none credentialName := rfl
  simp [split, shown, leaf, arriving]

theorem isTabOrNewline_of_not_isBlank {c : Char} (h : Text.isBlank c = false) :
    Url.isTabOrNewline c = false := by
  simp only [Url.isTabOrNewline, Bool.or_eq_false_iff, beq_eq_false_iff_ne]
  refine ⟨⟨?_, ?_⟩, ?_⟩ <;> rintro rfl <;> exact absurd h (by decide)

theorem withoutBreaks_trimmed {t : String} (h : trimmed category = some t) :
    withoutBreaks t ≠ "" ∧ (withoutBreaks t = "." → t = ".") := by
  obtain ⟨s, present, rfl⟩ := Option.map_eq_some_iff.1 h
  have something : Text.trim s ≠ "" := by
    rw [Ne, Text.trim_eq_empty_iff]
    simpa using (Option.filter_eq_some_iff.1 present).2
  have chars : (Text.trim s).toList = Text.trimChars s.toList := String.toList_ofList
  obtain ⟨a, m, split⟩ : ∃ a m, Text.trimChars s.toList = a :: m := by
    refine List.exists_cons_of_ne_nil ?_
    rwa [← chars, Ne, String.toList_eq_nil_iff]
  have first : Url.isTabOrNewline a = false :=
    isTabOrNewline_of_not_isBlank (Text.isBlank_of_head_trimChars (by rw [split, List.head?_cons]))
  rw [withoutBreaks, chars, split, List.filter_cons_of_pos (by simp [first])]
  refine ⟨by simp, fun dot => ?_⟩
  have single : a :: m.filter (!Url.isTabOrNewline ·) = ['.'] := String.ofList_inj.1 dot
  rcases List.eq_nil_or_concat m with rfl | ⟨m', z, rfl⟩
  · rw [← String.toList_inj, chars, split]
    simpa using single
  · have atEnd : (Text.trimChars s.toList).getLast? = some z := by
      rw [split, List.concat_eq_append, ← List.cons_append, List.getLast?_concat]
    have last := isTabOrNewline_of_not_isBlank (Text.isBlank_of_getLast_trimChars atEnd)
    simp [last] at single

theorem shown_cases (category : Option String) :
    shown category = [] ∨ ∃ s, shown category = [s] ∧ s ≠ "" ∧ s ≠ "." := by
  cases given : trimmed category with
  | none => exact .inl (by rw [shown, given]; rfl)
  | some t =>
    obtain ⟨something, dot⟩ := withoutBreaks_trimmed given
    by_cases passed : t = "." ∨ t = ".."
    · refine .inl ?_
      rcases passed with rfl | rfl <;> simp [shown, given, arriving]
    · rw [not_or] at passed
      refine .inr ⟨withoutBreaks t, ?_, something, mt dot passed.1⟩
      simp [shown, given, arriving, passed]

theorem Plain.shown_eq (h : Plain category) : shown category = (trimmed category).toList := by
  cases given : trimmed category with
  | none => rw [shown, given]; rfl
  | some t =>
    obtain ⟨dot, dots, unbroken⟩ := h t given
    have whole : t.toList.filter (!Url.isTabOrNewline ·) = t.toList :=
      List.filter_eq_self.2 fun c mem => by simp [unbroken c mem]
    simp [shown, given, arriving, dot, dots, withoutBreaks, whole]

theorem Plain.flat (h : Plain category) : ".." ∉ shown category := by
  rw [h.shown_eq, Option.mem_toList]
  exact fun given => (h ".." given).2.1 rfl

theorem foldl_shown_inj {special : Bool} {ss : List String} (flat : ".." ∉ shown category)
    (flat' : ".." ∉ shown category')
    (h : (shown category).foldl (descend special) ss =
      (shown category').foldl (descend special) ss) : shown category = shown category' := by
  have pushed {s : String} (something : s ≠ "") (dot : s ≠ ".") (dots : ".." ∉ [s]) :
      descend special ss s = ss ++ [segmentText special s] := by
    have other : s ≠ ".." := fun same => dots (by simp [same])
    simp [descend, something, dot, other]
  rcases shown_cases category with none | ⟨s, one, something, dot⟩ <;>
    rcases shown_cases category' with none' | ⟨s', one', something', dot'⟩
  · rw [none, none']
  · rw [none, one', List.foldl_cons, List.foldl_nil, List.foldl_nil,
      pushed something' dot' (one' ▸ flat')] at h
    simp at h
  · rw [none', one, List.foldl_cons, List.foldl_nil, List.foldl_nil,
      pushed something dot (one ▸ flat)] at h
    simp at h
  · rw [one, one', List.foldl_cons, List.foldl_nil, List.foldl_cons, List.foldl_nil,
      pushed something dot (one ▸ flat), pushed something' dot' (one' ▸ flat'),
      List.append_right_inj, List.singleton_inj] at h
    rw [one, one', Url.segmentText_inj h]

theorem derive_eq {base : String} {u : Url} (parsed : Url.parse base = .ok u) {ss : List String}
    (path : u.path = .segments ss) (title : String) (category credentialName : Option String) :
    (u.extend? (segments title category credentialName)).map Url.text =
      some (derive base title category credentialName) := by
  simp only [derive, parsed, Url.extend?, path, Option.map_some]

/-- Which categories share a URL. What stays of them once the first part of the leaf arrives decides
it; unless a double dot climbs, that is what the URL shows of them, and of plain categories it shows
all. -/
theorem derive_eq_iff {base : String} {u : Url} (parsed : Url.parse base = .ok u)
    (web : u.scheme = "http" ∨ u.scheme = "https") (title : String)
    (credentialName category category' : Option String) :
    (derive base title category credentialName = derive base title category' credentialName ↔
      stays u title credentialName category = stays u title credentialName category') ∧
    (".." ∉ shown category → ".." ∉ shown category' →
      (leaf title credentialName).head? ≠ some ".." →
      (derive base title category credentialName = derive base title category' credentialName ↔
        shown category = shown category')) ∧
    (Plain category → Plain category' → (leaf title credentialName).head? ≠ some ".." →
      trimmed category ≠ trimmed category' →
      derive base title category credentialName ≠
        derive base title category' credentialName) := by
  have special : u.isSpecial = true := by
    rcases web with http | https
    · rw [Url.isSpecial, http]; rfl
    · rw [Url.isSpecial, https]; rfl
  have notFile : u.isFile = false := by
    rcases web with http | https
    · rw [Url.isFile, http]; rfl
    · rw [Url.isFile, https]; rfl
  obtain ⟨ss, rooted⟩ := Url.rooted_of_parse parsed special notFile
  have exact_iff : derive base title category credentialName =
      derive base title category' credentialName ↔
        stays u title credentialName category = stays u title credentialName category' := by
    have same := Url.extend?_text_eq_iff rooted notFile (segments title category credentialName)
      (segments title category' credentialName)
    rw [derive_eq parsed rooted.path, derive_eq parsed rooted.path, Option.some.injEq,
      arriving_segments, arriving_segments, List.foldl_append, List.foldl_append,
      Url.foldl_descend_eq_iff] at same
    exact same
  have shown_iff (flat : ".." ∉ shown category) (flat' : ".." ∉ shown category')
      (noClimb : (leaf title credentialName).head? ≠ some "..") :
      derive base title category credentialName = derive base title category' credentialName ↔
        shown category = shown category' := by
    rw [exact_iff, stays, stays, kept, kept, if_neg noClimb, if_neg noClimb]
    exact ⟨foldl_shown_inj flat flat', fun same => by rw [same]⟩
  refine ⟨exact_iff, shown_iff, fun plain plain' noClimb distinct => ?_⟩
  rw [Ne, shown_iff plain.flat plain'.flat noClimb, plain.shown_eq, plain'.shown_eq]
  exact fun same => distinct (by simpa using congrArg List.head? same)

theorem derive_eq_iff_local_base :
    ∃ u, Url.parse "https://[::1]/contexts" = .ok u ∧
      derive "https://[::1]/contexts" "Home" (some "a\tb") (some "home") =
        derive "https://[::1]/contexts" "Home" (some " ab ") (some "home") ∧
      derive "https://[::1]/contexts" "Home" (some "a/b") (some "home") ≠
        derive "https://[::1]/contexts" "Home" (some "a%2Fb") (some "home") := by
  have parsed : Url.parse "https://[::1]/contexts" =
      .ok ⟨"https", some { host := some (.ipv6 [0, 0, 0, 0, 0, 0, 0, 1]) },
        .segments ["contexts"], none, none⟩ := by
    decide +kernel
  have iff (category category' : String) :=
    (derive_eq_iff parsed (.inr rfl) "Home" (some "home") (some category) (some category')).2.1
  refine ⟨_, parsed, ?_, ?_⟩
  · exact (iff "a\tb" " ab " (by decide +kernel) (by decide +kernel) (by decide +kernel)).2
      (by decide +kernel)
  · exact mt (iff "a/b" "a%2Fb" (by decide +kernel) (by decide +kernel) (by decide +kernel)).1
      (by decide +kernel)

/-- A category that is a dot has the URL of no category, and a tab makes no difference. -/
theorem exists_category_shares_url :
    ∃ base u, Url.parse base = .ok u ∧ u.scheme = "https" ∧ u.query = none ∧ u.fragment = none ∧
      (trimmed (some ".") ≠ trimmed none ∧
        derive base "Home" (some ".") (some "home") = derive base "Home" none (some "home")) ∧
      trimmed (some "a\tb") ≠ trimmed (some "ab") ∧
        derive base "Home" (some "a\tb") (some "home") =
          derive base "Home" (some "ab") (some "home") := by
  refine ⟨"https://[::1]/contexts", ⟨"https",
    some { host := some (.ipv6 [0, 0, 0, 0, 0, 0, 0, 1]) }, .segments ["contexts"], none, none⟩,
    ?_, rfl, rfl, rfl, ?_⟩ <;> decide +kernel

end ContextUrl
end CredentialSchema

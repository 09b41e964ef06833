import CredentialSchema.Proofs.Url.Written

/-!
What segments make of the path that they are added to. Exact dots do not arrive, and neither do tabs
and line breaks. A dot or an empty segment closes the path and a double dot takes one segment away;
each of them can arrive, when its spelling had a break in it. Of the segments that arrive only the
first reaches what was there before, so extensions are told apart by what it keeps.
-/
namespace CredentialSchema

namespace Url

def withoutBreaks (s : String) : String := .ofList (s.toList.filter (!isTabOrNewline ·))

/-- What arrives of segments that are added: a dot or a double dot does not. -/
def arriving (segments : List String) : List String :=
  (segments.filter fun s => s != "." && s != "..").map withoutBreaks

/-- The segments that the next one is added to; a lone slash has none. -/
def openPath (ss : List String) : List String := if ss = [""] then [] else ss

def closePath (ss : List String) : List String := if ss = [] then [] else ss ++ [""]

def segmentText (special : Bool) (s : String) : String :=
  .ofList (Percent.encode (Percent.segment special) s.toList)

def descend (special : Bool) (ss : List String) (s : String) : List String :=
  if s = ".." then closePath (shorten ss)
  else if s = "." ∨ s = "" then closePath ss
  else ss ++ [segmentText special s]

/-- What a segment that arrives keeps of an open path. -/
def kept (ss : List String) (next : Option String) : List String :=
  if next = some ".." then shorten ss else ss

variable {special : Bool} {ss ss' : List String}

theorem segment_percent : Percent.segment special '%' = true := by cases special <;> rfl

theorem segmentText_inj {s s' : String} (h : segmentText special s = segmentText special s') :
    s = s' :=
  String.toList_inj.1 (Percent.encode_inj segment_percent (String.ofList_inj.1 h))

theorem eq_of_segmentText_eq {s t spelling : String} (h : segmentText special s = spelling)
    (spells : Percent.decodeBytes spelling.toList = t.toList.flatMap String.utf8EncodeChar) :
    s = t := by
  refine String.toList_inj.1 (Percent.flatMap_utf8EncodeChar_inj ?_)
  rw [← spells, ← h, segmentText, String.toList_ofList, Percent.decodeBytes_encode segment_percent]

theorem isSingleDot_segmentText (s : String) :
    isSingleDot (segmentText special s) = true ↔ s = "." := by
  constructor
  · intro h
    simp only [isSingleDot, List.contains_cons, List.contains_nil, Bool.or_false, Bool.or_eq_true,
      beq_iff_eq] at h
    rcases h with h | h | h <;> exact eq_of_segmentText_eq h (by decide)
  · rintro rfl
    cases special <;> decide

theorem isDoubleDot_segmentText (s : String) :
    isDoubleDot (segmentText special s) = true ↔ s = ".." := by
  constructor
  · intro h
    simp only [isDoubleDot, List.contains_cons, List.contains_nil, Bool.or_false, Bool.or_eq_true,
      beq_iff_eq] at h
    rcases h with h | h | h | h | h | h | h | h | h <;> exact eq_of_segmentText_eq h (by decide)
  · rintro rfl
    cases special <;> decide

theorem segmentText_eq_empty (s : String) : segmentText special s = "" ↔ s = "" :=
  ⟨fun h => eq_of_segmentText_eq h (by decide), by rintro rfl; rfl⟩

theorem slash_not_mem_segmentText (s : String) : '/' ∉ (segmentText special s).toList := by
  rw [segmentText, String.toList_ofList]
  intro slash
  have unset := (Percent.slash_mem_encode slash).2
  cases special <;> exact absurd unset (by decide)

theorem pushSegment_eq (ss : List String) (s : String) :
    pushSegment special false ss s =
      arrive false true (openPath ss) (segmentText special (withoutBreaks s)) := by
  simp [pushSegment, tidy, openPath, segmentText, withoutBreaks]

theorem openPath_pushSegment (ss : List String) (s : String) :
    openPath (pushSegment special false ss s) =
      descend special (openPath ss) (withoutBreaks s) := by
  have closed (ss : List String) : openPath (ss ++ [""]) = closePath ss := by
    rw [openPath, closePath]
    cases ss <;> simp
  rw [pushSegment_eq, arrive, descend]
  generalize withoutBreaks s = w
  rw [if_congr (isDoubleDot_segmentText w) rfl rfl]
  split
  · exact closed _
  · rw [if_congr (isSingleDot_segmentText w) rfl rfl]
    by_cases dot : w = "."
    · simp [dot, closed]
    · by_cases empty : w = ""
      · have written : segmentText special "" = "" := rfl
        simp [empty, written, closed]
      · have written := mt (@segmentText_eq_empty special w).1 empty
        simp only [dot, empty, if_false, or_self, Bool.false_and, Bool.false_eq_true]
        rw [openPath, if_neg]
        cases openPath ss <;> simp [written]

theorem openPath_inj (h : ss ≠ []) (h' : ss' ≠ []) (same : openPath ss = openPath ss') :
    ss = ss' := by
  simp only [openPath] at same
  split_ifs at same <;> simp_all

theorem closePath_inj (same : closePath ss = closePath ss') : ss = ss' := by
  cases ss <;> cases ss' <;> simp_all [closePath]

theorem shorten_closePath (ss : List String) : shorten (closePath ss) = ss := by
  rw [closePath]
  split
  · next none => rw [none]; rfl
  · simp [shorten, isDriveLetter]

theorem shorten_append_inj {s : String} :
    shorten (ss ++ [s]) = shorten (ss' ++ [s]) ↔ ss = ss' := by
  by_cases drive : isDriveLetter s = true <;> simp [shorten, drive]

theorem descend_eq_iff (s : String) :
    descend special ss s = descend special ss' s ↔ kept ss (some s) = kept ss' (some s) := by
  simp only [descend, kept, Option.some.injEq]
  split_ifs
  · exact ⟨closePath_inj, congrArg closePath⟩
  · exact ⟨closePath_inj, congrArg closePath⟩
  · exact List.append_left_inj _

/-- Nothing that arrives later takes away more than the segment itself. -/
theorem shorten_descend_eq_iff (s : String) :
    shorten (descend special ss s) = shorten (descend special ss' s) ↔
      kept ss (some s) = kept ss' (some s) := by
  simp only [descend, kept, Option.some.injEq]
  split_ifs
  · rw [shorten_closePath, shorten_closePath]
  · rw [shorten_closePath, shorten_closePath]
  · exact shorten_append_inj

theorem foldl_descend_eq_iff (rest : List String) :
    rest.foldl (descend special) ss = rest.foldl (descend special) ss' ↔
      kept ss rest.head? = kept ss' rest.head? := by
  induction rest generalizing ss ss' with
  | nil => rfl
  | cons s rest ih =>
    rw [List.foldl_cons, List.foldl_cons, ih, List.head?_cons]
    by_cases climbs : rest.head? = some ".."
    · simpa only [kept, climbs, if_true] using shorten_descend_eq_iff s
    · simpa only [kept, climbs, if_false] using descend_eq_iff s

theorem Slashless.popIfEmpty (h : Slashless ss) : Slashless (popIfEmpty ss) := by
  rw [Url.popIfEmpty]
  split
  · exact fun s mem => h s (List.dropLast_subset ss mem)
  · exact h

theorem popIfEmpty_ne_nil (h : ss ≠ []) : popIfEmpty ss ≠ [] := by
  rw [popIfEmpty]
  split
  · next long =>
    intro none
    have length : ss.dropLast.length = ss.length - 1 := List.length_dropLast
    rw [none, List.length_nil] at length
    omega
  · exact h

theorem Slashless.pushSegment (h : Slashless ss) (s : String) :
    Slashless (pushSegment special false ss s) := by
  rw [pushSegment_eq]
  refine Slashless.arrive ?_ (slash_not_mem_segmentText _) false true
  rw [openPath]
  split
  · simp [Slashless]
  · exact h

theorem pushSegment_ne_nil (ss : List String) (s : String) :
    pushSegment special false ss s ≠ [] := by
  rw [pushSegment_eq]
  exact arrive_ne_nil _ _ _

theorem openPath_foldl (segments : List String) :
    openPath (segments.foldl (pushSegment special false) ss) =
      (segments.map withoutBreaks).foldl (descend special) (openPath ss) := by
  induction segments generalizing ss with
  | nil => rfl
  | cons s segments ih =>
    rw [List.foldl_cons, ih, openPath_pushSegment, List.map_cons, List.foldl_cons]

theorem path_foldl (h : ss ≠ []) (slashless : Slashless ss) (segments : List String) :
    segments.foldl (pushSegment special false) ss ≠ [] ∧
      Slashless (segments.foldl (pushSegment special false) ss) := by
  induction segments generalizing ss with
  | nil => exact ⟨h, slashless⟩
  | cons s segments ih => exact ih (pushSegment_ne_nil ss s) (slashless.pushSegment s)

def openSegments (u : Url) : List String :=
  match u.path with
  | .segments ss => openPath (popIfEmpty ss)
  | .single _ => []

theorem extend?_text_eq_iff {u : Url} (rooted : Rooted u ss) (notFile : u.isFile = false)
    (segments segments' : List String) :
    (u.extend? segments).map text = (u.extend? segments').map text ↔
      (arriving segments).foldl (descend u.isSpecial) u.openSegments =
        (arriving segments').foldl (descend u.isSpecial) u.openSegments := by
  have path := @path_foldl u.isSpecial _ (popIfEmpty_ne_nil rooted.some_segment)
    rooted.slashless.popIfEmpty
  have here : u.openSegments = openPath (popIfEmpty ss) := by rw [openSegments, rooted.path]
  simp only [extend?, rooted.path, notFile, Option.map_some, Option.some.injEq, here, arriving,
    ← openPath_foldl]
  constructor
  · intro same
    exact congrArg openPath (text_inj rooted.authority (path _).2 (path _).2 same)
  · intro same
    rw [openPath_inj (path _).1 (path _).1 same]

end Url
end CredentialSchema

import Mathlib.Data.List.Chain
import CredentialSchema.Proofs.Url.Authority
import CredentialSchema.Proofs.Url.Category

/-!
Context URLs by their segments. A part of the category or of the leaf is a segment of its own,
unless nothing or only dots are left of it without tabs and line breaks: then it is passed over,
leaves an empty segment or takes the one before it away, so that the URL never has as many segments
that are not empty. If every part is a segment, no slash follows another after the scheme, and none
stands at the end.
-/
namespace CredentialSchema

namespace Url

def front (u : Url) : String := u.scheme ++ "://" ++ (u.authority.map Authority.text).getD ""

def fullPath (ss : List String) : List String := if ss = [] then [""] else ss

/-- A text that is one more segment of a path that it is added to. -/
def IsSegment (s : String) : Prop := withoutBreaks s ∉ ["", ".", ".."]

instance (s : String) : Decidable (IsSegment s) :=
  inferInstanceAs (Decidable (withoutBreaks s ∉ ["", ".", ".."]))

variable {special : Bool} {ss ss' : List String} {u : Url}

theorem toList_text_segments (ss : List String) :
    (Path.segments ss).text.toList = ss.flatMap fun s => '/' :: s.toList := by
  induction ss with
  | nil => rfl
  | cons s ss ih =>
    rw [List.flatMap_cons, ← ih]
    cases ss <;> simp [Path.text]

theorem text_segments_append (ss ss' : List String) :
    (Path.segments (ss ++ ss')).text = (Path.segments ss).text ++ (Path.segments ss').text := by
  rw [← String.toList_inj]
  simp [toList_text_segments]

theorem fullPath_openPath (h : ss ≠ []) : fullPath (openPath ss) = ss := by
  rw [openPath]
  split
  · next lone => rw [lone]; rfl
  · exact if_neg h

theorem text_segments (authority : u.authority.isSome = true) (query : u.query = none)
    (fragment : u.fragment = none) (ss : List String) :
    ({ u with path := .segments ss } : Url).text = u.front ++ (Path.segments ss).text := by
  obtain ⟨a, given⟩ := Option.isSome_iff_exists.1 authority
  have colon : "://" = ":" ++ "//" := rfl
  simp only [text, front, given, query, fragment, queryText, colon, Option.map_none,
    Option.map_some, Option.getD_none, Option.getD_some, String.append_empty, String.append_assoc]

def extendedPath (u : Url) (parts : List String) : List String :=
  fullPath ((arriving parts).foldl (descend u.isSpecial) u.openSegments)

theorem extendedPath_eq (rooted : Rooted u ss) (parts : List String) :
    u.extendedPath parts = (parts.filter fun s => s != "." && s != "..").foldl
      (pushSegment u.isSpecial false) (popIfEmpty ss) := by
  have path := @path_foldl u.isSpecial _ (popIfEmpty_ne_nil rooted.some_segment)
    rooted.slashless.popIfEmpty
  have here : u.openSegments = openPath (popIfEmpty ss) := by rw [openSegments, rooted.path]
  rw [extendedPath, arriving, here, ← openPath_foldl, fullPath_openPath (path _).1]

theorem slashless_extendedPath (rooted : Rooted u ss) (parts : List String) :
    Slashless (u.extendedPath parts) := by
  rw [extendedPath_eq rooted]
  exact (path_foldl (popIfEmpty_ne_nil rooted.some_segment) rooted.slashless.popIfEmpty _).2

theorem text_extend? (rooted : Rooted u ss) (notFile : u.isFile = false) (query : u.query = none)
    (fragment : u.fragment = none) (parts : List String) :
    (u.extend? parts).map text =
      some (u.front ++ (Path.segments (u.extendedPath parts)).text) := by
  rw [extendedPath_eq rooted, ← text_segments rooted.authority query fragment]
  simp only [extend?, rooted.path, notFile, Option.map_some]

theorem descend_of_segment {w : String} (h : w ∉ ["", ".", ".."]) :
    descend special ss w = ss ++ [segmentText special w] := by
  simp only [List.mem_cons, List.not_mem_nil, or_false, not_or] at h
  simp [descend, h]

theorem foldl_descend_of_segments {ws : List String} (h : ∀ w ∈ ws, w ∉ ["", ".", ".."]) :
    ws.foldl (descend special) ss = ss ++ ws.map (segmentText special) := by
  induction ws generalizing ss with
  | nil => simp
  | cons w ws ih =>
    rw [List.foldl_cons, descend_of_segment (h w List.mem_cons_self),
      ih fun w' mem => h w' (List.mem_cons_of_mem w mem), List.map_cons, List.append_assoc,
      List.singleton_append]

theorem extendedPath_of_segments {parts : List String} (h : ∀ s ∈ parts, IsSegment s) :
    u.extendedPath parts = fullPath (u.openSegments ++
      parts.map fun s => segmentText u.isSpecial (withoutBreaks s)) := by
  have noDot (s) (mem : s ∈ parts) : (s != "." && s != "..") = true := by
    rw [Bool.and_eq_true, bne_iff_ne, bne_iff_ne]
    constructor <;> rintro rfl <;> exact absurd (h _ mem) (by decide)
  have all : ∀ w ∈ parts.map withoutBreaks, w ∉ ["", ".", ".."] := by
    intro w mem
    obtain ⟨s, part, rfl⟩ := List.mem_map.1 mem
    exact h s part
  rw [extendedPath, arriving, List.filter_eq_self.2 noDot, foldl_descend_of_segments all,
    List.map_map]
  rfl

def filled (ss : List String) : Nat := ss.countP (· ≠ "")

theorem filled_closePath (ss : List String) : filled (closePath ss) = filled ss := by
  rw [closePath]
  split
  · next none => rw [none]
  · simp [filled]

theorem filled_shorten_le (ss : List String) : filled (shorten ss) ≤ filled ss := by
  have dropped : filled ss.dropLast ≤ filled ss := (List.dropLast_sublist ss).countP_le
  rw [shorten]
  split
  · split
    · exact le_rfl
    · exact dropped
  · exact le_rfl

theorem filled_descend_le (w : String) :
    filled (descend special ss w) ≤ filled ss + if w ∉ ["", ".", ".."] then 1 else 0 := by
  by_cases segment : w ∉ ["", ".", ".."]
  · rw [descend_of_segment segment, if_pos segment, filled, List.countP_append]
    exact Nat.add_le_add_left List.countP_le_length _
  · rw [if_neg segment, descend]
    split
    · rw [filled_closePath]
      exact filled_shorten_le ss
    · split
      · rw [filled_closePath, Nat.add_zero]
      · next dots other =>
        rw [not_or] at other
        exact absurd (by simp [dots, other]) segment

theorem filled_foldl_le (ws : List String) :
    filled (ws.foldl (descend special) ss) ≤ filled ss + ws.countP (· ∉ ["", ".", ".."]) := by
  induction ws generalizing ss with
  | nil => simp
  | cons w ws ih =>
    have first := @filled_descend_le special ss w
    have rest := @ih (descend special ss w)
    rw [List.foldl_cons, List.countP_cons]
    simp only [decide_eq_true_eq]
    omega

/-- The URL up to the end of its path, without a closing slash. -/
def stem (u : Url) : String := u.front ++ (Path.segments u.openSegments).text

theorem filled_extendedPath_le (parts : List String) :
    filled (u.extendedPath parts) ≤ filled u.openSegments + parts.countP (IsSegment ·) := by
  have count : (arriving parts).countP (· ∉ ["", ".", ".."]) ≤ parts.countP (IsSegment ·) := by
    rw [arriving, List.countP_map]
    exact List.filter_sublist.countP_le
  have lone (ss : List String) : filled (fullPath ss) ≤ filled ss := by
    rw [fullPath]
    split
    · simp [filled]
    · exact le_rfl
  have fold := @filled_foldl_le u.isSpecial u.openSegments (arriving parts)
  have full := lone ((arriving parts).foldl (descend u.isSpecial) u.openSegments)
  rw [extendedPath]
  omega

theorem filled_eq_length (h : ∀ s ∈ ss, s ≠ "") : filled ss = ss.length :=
  List.countP_eq_length.2 fun s mem => decide_eq_true (h s mem)

/-- No slash after a slash, and none at the end. -/
structure Undoubled (cs : List Char) : Prop where
  chain : cs.IsChain fun a b => ¬ (a = '/' ∧ b = '/')
  last : ∀ c ∈ cs.getLast?, c ≠ '/'

theorem undoubled_of_slashless {cs : List Char} (h : '/' ∉ cs) : Undoubled cs := by
  refine ⟨?_, fun c mem => ?_⟩
  · refine List.Pairwise.isChain (List.pairwise_of_forall_mem_list ?_)
    rintro a mem b - ⟨rfl, -⟩
    exact h mem
  · rintro rfl
    exact h (List.mem_of_getLast? mem)

theorem Undoubled.segment {cs : List Char} (h : Undoubled cs) {s : String} (some : s ≠ "")
    (slashless : '/' ∉ s.toList) : Undoubled (cs ++ '/' :: s.toList) := by
  have inner := undoubled_of_slashless slashless
  have nonempty : s.toList ≠ [] := by simpa using some
  refine ⟨List.isChain_append.2 ⟨h.chain, ?_, ?_⟩, ?_⟩
  · refine List.isChain_cons.2 ⟨?_, inner.chain⟩
    rintro c first ⟨-, rfl⟩
    exact slashless (List.mem_of_mem_head? first)
  · rintro c last d - ⟨rfl, -⟩
    exact h.last _ last rfl
  · rw [List.getLast?_append_cons, List.getLast?_cons_of_ne_nil nonempty]
    exact inner.last

theorem Undoubled.segments {cs : List Char} (h : Undoubled cs) (some : ∀ s ∈ ss, s ≠ "")
    (slashless : Slashless ss) : Undoubled (cs ++ (Path.segments ss).text.toList) := by
  rw [toList_text_segments]
  induction ss generalizing cs with
  | nil => simpa using h
  | cons s ss ih =>
    rw [List.forall_mem_cons] at some
    have first := h.segment some.1 (slashless s List.mem_cons_self)
    have rest := ih first some.2 fun s' mem => slashless s' (List.mem_cons_of_mem s mem)
    simpa using rest

theorem getLast?_segments (before : String) (nonempty : ss ≠ []) (filled : ∀ s ∈ ss, s ≠ "")
    (slashless : Slashless ss) :
    (before ++ (Path.segments ss).text).toList.getLast? ≠ some '/' := by
  obtain rfl | ⟨init, last, rfl⟩ := List.eq_nil_or_concat ss
  · exact absurd rfl nonempty
  · have mem : last ∈ init.concat last := by simp
    have letters : last.toList ≠ [] := by simpa using filled last mem
    rw [List.concat_eq_append, String.toList_append, text_segments_append, String.toList_append,
      toList_text_segments [last], List.flatMap_singleton, ← List.append_assoc,
      List.getLast?_append_cons, List.getLast?_cons_of_ne_nil letters]
    exact fun slash => slashless last mem (List.mem_of_getLast? slash)

theorem not_infix_of_isChain {cs : List Char}
    (h : cs.IsChain fun a b => ¬ (a = '/' ∧ b = '/')) : ¬ ['/', '/'] <:+: cs := by
  intro inside
  have chain := h.infix inside
  simp at chain

theorem openSegments_cases (rooted : Rooted u ss) (whole : ∀ s ∈ ss.dropLast, s ≠ "") :
    (∀ s ∈ u.openSegments, s ≠ "") ∧ (ss = u.openSegments ∨ ss = u.openSegments ++ [""]) := by
  have here : u.openSegments = openPath (popIfEmpty ss) := by rw [openSegments, rooted.path]
  obtain rfl | ⟨init, last, rfl⟩ := List.eq_nil_or_concat ss
  · exact absurd rfl rooted.some_segment
  · rw [List.concat_eq_append, List.dropLast_concat] at whole
    rw [here, List.concat_eq_append, popIfEmpty, List.getLast?_concat, List.dropLast_concat]
    by_cases closing : last = ""
    · subst closing
      rcases init with _ | ⟨s, init⟩
      · exact ⟨by simp [openPath], .inr rfl⟩
      · have filled : s :: init ≠ [""] := fun lone => whole s (by simp) (List.cons.inj lone).1
        rw [if_pos ⟨by simp, rfl⟩, openPath, if_neg filled]
        exact ⟨whole, .inr rfl⟩
    · have filled : init ++ [last] ≠ [""] := by
        intro lone
        have same := congrArg List.getLast? lone
        rw [List.getLast?_concat] at same
        exact closing (Option.some.inj same)
      rw [if_neg fun popped => closing (Option.some.inj popped.2), openPath, if_neg filled]
      refine ⟨fun s mem => ?_, .inl rfl⟩
      rcases List.mem_append.1 mem with mem | mem
      · exact whole s mem
      · exact List.mem_singleton.1 mem ▸ closing

theorem slashless_openSegments (rooted : Rooted u ss) (whole : ∀ s ∈ ss.dropLast, s ≠ "") :
    Slashless u.openSegments := by
  rcases (openSegments_cases rooted whole).2 with same | same
  · exact same ▸ rooted.slashless
  · exact (slashless_append.1 (same ▸ rooted.slashless)).1

theorem special_of_web (web : u.scheme = "http" ∨ u.scheme = "https") :
    u.isSpecial = true ∧ u.isFile = false := by
  rw [isSpecial, isFile]
  rcases web with http | https
  · rw [http]
    exact ⟨rfl, rfl⟩
  · rw [https]
    exact ⟨rfl, rfl⟩

theorem text_eq_stem (rooted : Rooted u ss) (query : u.query = none) (fragment : u.fragment = none)
    (whole : ∀ s ∈ ss.dropLast, s ≠ "") : u.text = u.stem ∨ u.text = u.stem ++ "/" := by
  have written := text_segments rooted.authority query fragment ss
  have same : ({ u with path := .segments ss } : Url) = u := by rw [← rooted.path]
  rw [same] at written
  rcases (openSegments_cases rooted whole).2 with path | path
  · rw [written, stem, ← path]
    exact .inl rfl
  · rw [written, stem, path, text_segments_append, ← String.append_assoc]
    exact .inr rfl

end Url

namespace ContextUrl

open Url (IsSegment Path Rooted Slashless segmentText withoutBreaks)

variable {base : String} {u : Url} {ss parts : List String}

/-- What the parts of a context URL are as segments of it. -/
def written (parts : List String) : List String :=
  parts.map fun s => segmentText true (withoutBreaks s)

theorem written_segments (h : ∀ s ∈ parts, IsSegment s) :
    (∀ s ∈ written parts, s ≠ "") ∧ Slashless (written parts) := by
  constructor <;> intro w mem <;> obtain ⟨s, part, rfl⟩ := List.mem_map.1 mem
  · intro empty
    have gone := (Url.segmentText_eq_empty _).1 empty
    exact h s part (by simp [gone])
  · exact Url.slash_not_mem_segmentText _

theorem isSegment_of_added (filled : ∀ s ∈ u.openSegments, s ≠ "") {added : List String}
    (h : u.extendedPath parts = u.openSegments ++ added) (some : ∀ s ∈ added, s ≠ "")
    (length : added.length = parts.length) : ∀ s ∈ parts, IsSegment s := by
  have count := Url.filled_extendedPath_le (u := u) parts
  have full : Url.filled (u.openSegments ++ added) = u.openSegments.length + parts.length := by
    rw [Url.filled_eq_length, List.length_append, length]
    intro s mem
    exact (List.mem_append.1 mem).elim (filled s) (some s)
  rw [h, full, Url.filled_eq_length filled] at count
  have most := List.countP_le_length (p := fun s => decide (IsSegment s)) (l := parts)
  have all : parts.countP (fun s => decide (IsSegment s)) = parts.length := by omega
  exact fun s mem => of_decide_eq_true (List.countP_eq_length.1 all s mem)

theorem extendedPath_of_parts (special : u.isSpecial = true) (h : ∀ s ∈ parts, IsSegment s)
    (some : parts = [] → u.openSegments ≠ []) :
    u.extendedPath parts = u.openSegments ++ written parts := by
  rw [Url.extendedPath_of_segments h, special, Url.fullPath, if_neg]
  · rfl
  · intro none
    obtain ⟨lone, noParts⟩ := List.append_eq_nil_iff.1 none
    exact some (List.map_eq_nil_iff.1 noParts) lone

theorem added_iff (rooted : Rooted u ss) (special : u.isSpecial = true)
    (whole : ∀ s ∈ ss.dropLast, s ≠ "") :
    (∃ added : List String, added.length = parts.length ∧
        (∀ s ∈ added, s ≠ "" ∧ '/' ∉ s.toList) ∧
        u.front ++ (Path.segments (u.extendedPath parts)).text =
          u.stem ++ (Path.segments added).text) ↔
      (∀ s ∈ parts, IsSegment s) ∧ (parts = [] → u.openSegments ≠ []) := by
  have filled := (Url.openSegments_cases rooted whole).1
  have slashless := Url.slashless_openSegments rooted whole
  have stem (added : List String) : u.stem ++ (Path.segments added).text =
      u.front ++ (Path.segments (u.openSegments ++ added)).text := by
    rw [Url.stem, Url.text_segments_append, String.append_assoc]
  constructor
  · rintro ⟨added, length, areSegments, same⟩
    rw [stem, String.append_right_inj] at same
    have path := Url.path_text_inj (Url.slashless_extendedPath rooted parts)
      (Url.slashless_append.2 ⟨slashless, fun s mem => (areSegments s mem).2⟩) same
    refine ⟨isSegment_of_added filled path (fun s mem => (areSegments s mem).1) length, ?_⟩
    rintro rfl lone
    rw [List.length_nil, List.length_eq_zero_iff] at length
    rw [lone, length, Url.extendedPath, lone] at path
    exact absurd path nofun
  · rintro ⟨areSegments, some⟩
    obtain ⟨nonempty, apart⟩ := written_segments areSegments
    refine ⟨written parts, by simp [written], fun s mem => ⟨nonempty s mem, apart s mem⟩, ?_⟩
    rw [stem, extendedPath_of_parts special areSegments some]

theorem not_infix_of_parts {authority : List Char} (host : '/' ∉ authority) (rooted : Rooted u ss)
    (special : u.isSpecial = true) (whole : ∀ s ∈ ss.dropLast, s ≠ "")
    (h : ∀ s ∈ parts, IsSegment s) :
    ¬ ['/', '/'] <:+: authority ++ (Path.segments (u.extendedPath parts)).text.toList := by
  have undoubled := Url.undoubled_of_slashless host
  refine Url.not_infix_of_isChain ?_
  by_cases none : parts = [] ∧ u.openSegments = []
  · have path : (Path.segments (u.extendedPath parts)).text.toList = ['/'] := by
      simp [Url.extendedPath, none.1, none.2, Url.arriving, Url.fullPath, Path.text]
    rw [path]
    refine List.isChain_append.2 ⟨undoubled.chain, List.isChain_singleton _, ?_⟩
    rintro c last d - ⟨rfl, -⟩
    exact undoubled.last _ last rfl
  · rw [extendedPath_of_parts special h fun noParts lone => none ⟨noParts, lone⟩]
    obtain ⟨nonempty, apart⟩ := written_segments h
    refine (undoubled.segments (fun s mem => ?_) (Url.slashless_append.2
      ⟨Url.slashless_openSegments rooted whole, apart⟩)).chain
    exact (List.mem_append.1 mem).elim ((Url.openSegments_cases rooted whole).1 s) (nonempty s)

/-- When a context URL is its namespace with one segment for each part of the category and the leaf.
It is exactly if each part is a segment, which it is not if without tabs and line breaks nothing or
only dots are left of it, and if the URL has a segment at all. Then no slash follows another after
the scheme, and none stands behind a part. -/
theorem derive_segments (parsed : Url.parse base = .ok u)
    (web : u.scheme = "http" ∨ u.scheme = "https") (query : u.query = none)
    (fragment : u.fragment = none)
    (whole : ∀ ss, u.path = .segments ss → ∀ s ∈ ss.dropLast, s ≠ "")
    (title : String) (category credentialName : Option String) :
    let parts := segments title category credentialName
    let url := derive base title category credentialName
    (u.text = u.stem ∨ u.text = u.stem ++ "/") ∧
    ((∃ added : List String, added.length = parts.length ∧
        (∀ s ∈ added, s ≠ "" ∧ '/' ∉ s.toList) ∧ url = u.stem ++ (Path.segments added).text) ↔
      (∀ s ∈ parts, IsSegment s) ∧ (parts = [] → u.openSegments ≠ [])) ∧
    ((∀ s ∈ parts, IsSegment s) →
      (parts ≠ [] → url = u.stem ++ (Path.segments (written parts)).text ∧
        url.toList.getLast? ≠ some '/') ∧
      ∃ rest, url = u.scheme ++ "://" ++ rest ∧ ¬ ['/', '/'] <:+: rest.toList) := by
  intro parts url
  obtain ⟨special, notFile⟩ := Url.special_of_web web
  obtain ⟨ss, rooted⟩ := Url.rooted_of_parse parsed special notFile
  have extended : url = u.front ++ (Path.segments (u.extendedPath parts)).text := by
    have made := Url.text_extend? rooted notFile query fragment parts
    rw [derive_eq parsed rooted.path] at made
    exact Option.some.inj made
  refine ⟨?_, ?_, ?_⟩
  · exact Url.text_eq_stem rooted query fragment (whole ss rooted.path)
  · rw [extended]
    exact added_iff rooted special (whole ss rooted.path)
  · intro areSegments
    refine ⟨fun some => ?_, ?_⟩
    · have made : url = u.stem ++ (Path.segments (written parts)).text := by
        rw [extended, extendedPath_of_parts special areSegments fun none => absurd none some,
          Url.text_segments_append, Url.stem, String.append_assoc]
      obtain ⟨nonempty, apart⟩ := written_segments areSegments
      refine ⟨made, ?_⟩
      rw [made]
      exact Url.getLast?_segments _ (by simpa [written] using some) nonempty apart
    · obtain ⟨a, authority, host⟩ := Url.slash_not_mem_of_parse parsed special notFile
      refine ⟨a.text ++ (Path.segments (u.extendedPath parts)).text, ?_, ?_⟩
      · rw [extended, Url.front, authority, Option.map_some, Option.getD_some,
          String.append_assoc]
      · rw [String.toList_append]
        exact not_infix_of_parts host rooted special (whole ss rooted.path) areSegments

theorem derive_segments_kyc :
    ∃ u, Url.parse "https://[::1]/contexts/" = .ok u ∧
      derive "https://[::1]/contexts/" "" (some "kyc") (some "/a//b/") =
        u.stem ++ (Path.segments ["kyc", "a", "b"]).text := by
  have parsed : Url.parse "https://[::1]/contexts/" =
      .ok ⟨"https", some { host := some (.ipv6 [0, 0, 0, 0, 0, 0, 0, 1]) },
        .segments ["contexts", ""], none, none⟩ := by
    decide +kernel
  have whole : ∀ ss, Path.segments ["contexts", ""] = .segments ss →
      ∀ s ∈ ss.dropLast, s ≠ "" := by
    rintro _ ⟨⟩
    decide
  have segments := (derive_segments parsed (.inr rfl) rfl rfl whole "" (some "kyc")
    (some "/a//b/")).2.2 (by decide +kernel)
  exact ⟨_, parsed, (segments.1 (by decide +kernel)).1.trans (by decide +kernel)⟩

/-- A part that is only a tab is an empty segment, and dots with a tab between them take a segment
of the namespace away. -/
theorem exists_derive_empty_segment :
    ∃ base u, Url.parse base = .ok u ∧ u.scheme = "https" ∧ u.query = none ∧ u.fragment = none ∧
      u.path = .segments ["contexts"] ∧
      derive base "Home" none (some "a/\t/b") = base ++ "/a//b" ∧
      derive base "Home" (some ".\t.") (some "home") = "https://[::1]/home" := by
  refine ⟨"https://[::1]/contexts", ⟨"https",
    some { host := some (.ipv6 [0, 0, 0, 0, 0, 0, 0, 1]) }, .segments ["contexts"], none, none⟩,
    ?_, rfl, rfl, rfl, rfl, ?_⟩ <;> decide +kernel

end ContextUrl
end CredentialSchema

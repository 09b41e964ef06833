import Mathlib.Data.List.Basic
import CredentialSchema.Proofs.Lists
import CredentialSchema.Url.Parser

/-!
What is written into a URL can be told apart in it. Percent decoding gives the bytes of a text back
if the percent sign is among what is encoded, and the slash separates segments that hold none, as
do all segments of a parsed path. So different texts are different segments, and different paths of
segments are different URLs.
-/
namespace CredentialSchema

namespace Percent

open Text (hexDigit? hexCharUpper)

variable {set : Char → Bool}

theorem hexDigit?_hexCharUpper : ∀ d < 16, hexDigit? (hexCharUpper d) = some d := by decide

theorem decodeBytes_encodeByte (b : UInt8) (cs : List Char) :
    decodeBytes (encodeByte b ++ cs) = b :: decodeBytes cs := by
  have high := hexDigit?_hexCharUpper (b.toNat / 16) (by have := b.toNat_lt; omega)
  have low := hexDigit?_hexCharUpper (b.toNat % 16) (Nat.mod_lt _ (by decide))
  simp only [encodeByte, List.cons_append, List.nil_append, decodeBytes, high, low,
    Nat.div_add_mod, UInt8.ofNat_toNat]

theorem decodeBytes_encodeBytes (bs : List UInt8) (cs : List Char) :
    decodeBytes (bs.flatMap encodeByte ++ cs) = bs ++ decodeBytes cs := by
  induction bs with
  | nil => rfl
  | cons b bs ih =>
    rw [List.flatMap_cons, List.append_assoc, decodeBytes_encodeByte, ih, List.cons_append]

theorem decodeBytes_cons {c : Char} (other : c ≠ '%') (cs : List Char) :
    decodeBytes (c :: cs) = String.utf8EncodeChar c ++ decodeBytes cs := by
  rw [decodeBytes]
  exact fun _ _ _ same => absurd same other

theorem decodeBytes_encode (percent : set '%' = true) (cs : List Char) :
    decodeBytes (encode set cs) = cs.flatMap String.utf8EncodeChar := by
  induction cs with
  | nil => rfl
  | cons c cs ih =>
    rw [encode, List.flatMap_cons, List.flatMap_cons, ← ih, encodeChar]
    split
    · exact decodeBytes_encodeBytes _ _
    · next plain =>
      have other : c ≠ '%' := by
        rintro rfl
        simp [percent] at plain
      exact decodeBytes_cons other _

theorem flatMap_utf8EncodeChar_inj {cs cs' : List Char}
    (h : cs.flatMap String.utf8EncodeChar = cs'.flatMap String.utf8EncodeChar) : cs = cs' := by
  have same : cs.utf8Encode = cs'.utf8Encode := by rw [List.utf8Encode, h, List.utf8Encode]
  have decoded := congrArg ByteArray.utf8Decode? same
  rw [List.utf8Decode?_utf8Encode, List.utf8Decode?_utf8Encode] at decoded
  simpa using decoded

theorem encode_inj (percent : set '%' = true) {cs cs' : List Char}
    (h : encode set cs = encode set cs') : cs = cs' := by
  refine flatMap_utf8EncodeChar_inj ?_
  rw [← decodeBytes_encode percent, h, decodeBytes_encode percent]

theorem hexCharUpper_ne_slash : ∀ d < 16, hexCharUpper d ≠ '/' := by decide

theorem slash_mem_encode {cs : List Char} (h : '/' ∈ encode set cs) :
    '/' ∈ cs ∧ set '/' = false := by
  obtain ⟨c, mem, written⟩ := List.mem_flatMap.1 h
  rw [encodeChar] at written
  split at written
  · obtain ⟨b, -, digit⟩ := List.mem_flatMap.1 written
    have high := hexCharUpper_ne_slash (b.toNat / 16) (by have := b.toNat_lt; omega)
    have low := hexCharUpper_ne_slash (b.toNat % 16) (Nat.mod_lt _ (by decide))
    simp [encodeByte, high.symm, low.symm] at digit
  · next plain =>
    obtain rfl := List.mem_singleton.1 written
    simp only [Bool.or_eq_true, decide_eq_true_eq, not_or, Bool.not_eq_true] at plain
    exact ⟨mem, plain.2⟩

end Percent

namespace Url

def Slashless (ss : List String) : Prop := ∀ s ∈ ss, '/' ∉ s.toList

variable {ss ss' : List String}

@[simp] theorem slashless_append : Slashless (ss ++ ss') ↔ Slashless ss ∧ Slashless ss' :=
  List.forall_mem_append

theorem slashless_singleton {s : String} : Slashless [s] ↔ '/' ∉ s.toList :=
  List.forall_mem_singleton

theorem Slashless.shorten (h : Slashless ss) : Slashless (shorten ss) := by
  have dropped : Slashless ss.dropLast := fun s mem => h s (List.dropLast_subset ss mem)
  unfold Url.shorten
  split
  · split
    · exact h
    · exact dropped
  · exact h

theorem slashless_pathParts (special : Bool) (cs : List Char) :
    Slashless (pathParts special cs) := by
  intro s mem
  rw [pathParts] at mem
  obtain ⟨part, inParts, rfl⟩ := List.mem_map.1 mem
  rw [String.toList_ofList]
  intro slash
  simpa using (of_mem_splitOnP inParts '/' (Percent.slash_mem_encode slash).1).2

theorem splitOn_path (cs : List Char) (apart : '/' ∉ cs) (h : Slashless ss) :
    (cs ++ (Path.segments ss).text.toList).splitOn '/' = cs :: ss.map String.toList := by
  induction ss generalizing cs with
  | nil => simpa [Path.text] using List.splitOn_eq_singleton apart
  | cons s ss ih =>
    have text : (Path.segments (s :: ss)).text.toList =
        '/' :: (s.toList ++ (Path.segments ss).text.toList) := by
      cases ss <;> simp [Path.text]
    rw [text, List.splitOn_append_cons_self_of_not_mem apart, ih s.toList (h s (by simp))
      fun s' mem => h s' (by simp [mem])]
    rfl

theorem path_text_inj (h : Slashless ss) (h' : Slashless ss')
    (same : (Path.segments ss).text = (Path.segments ss').text) : ss = ss' := by
  have split := splitOn_path [] List.not_mem_nil h
  rw [same, splitOn_path [] List.not_mem_nil h', List.cons.injEq] at split
  exact (List.map_injective_iff.2 (fun _ _ => String.toList_inj.1) split.2).symm

theorem slashless_driveSegment {s : String} (h : '/' ∉ s.toList) :
    '/' ∉ (driveSegment s).toList := by
  rw [driveSegment]
  split
  · have first : '/' ∉ s.toList.take 1 := fun mem => h (List.mem_of_mem_take mem)
    simp [first]
  · exact h

theorem Slashless.arrive (h : Slashless ss) {s : String} (hs : '/' ∉ s.toList)
    (file last : Bool) : Slashless (arrive file last ss s) := by
  have closed {ss : List String} (h : Slashless ss) :
      Slashless (if last = true then ss ++ [""] else ss) := by
    split
    · exact slashless_append.2 ⟨h, slashless_singleton.2 (by simp)⟩
    · exact h
  rw [Url.arrive]
  split
  · exact closed h.shorten
  · split
    · exact closed h
    · refine slashless_append.2 ⟨h, slashless_singleton.2 ?_⟩
      split
      · exact slashless_driveSegment hs
      · exact hs

theorem Slashless.arriveAll (file : Bool) : ∀ {ss : List String} (arriving : List String),
    Slashless ss → Slashless arriving → Slashless (arriveAll file ss arriving)
  | _, [], h, _ => h
  | _, [_], h, apart => h.arrive (slashless_singleton.1 apart) file true
  | _, s :: s' :: rest, h, apart =>
    arriveAll file (s' :: rest) (h.arrive (apart s List.mem_cons_self) file false)
      fun t mem => apart t (.tail s mem)

theorem Slashless.tidy (h : Slashless ss) (file : Bool) : Slashless (tidy file ss) := by
  rw [Url.tidy]
  split
  · split
    · exact slashless_singleton.2 (by simp)
    · next rest =>
      have sub := List.dropWhile_sublist (l := ss) String.isEmpty
      exact fun s mem => h s (sub.subset (by simpa [rest] using mem))
  · exact h

theorem arrive_ne_nil (file : Bool) (ss : List String) (s : String) :
    arrive file true ss s ≠ [] := by
  rw [arrive]
  split
  · simp
  · split <;> simp

theorem arriveAll_ne_nil (file : Bool) : ∀ (ss arriving : List String), arriving ≠ [] →
    arriveAll file ss arriving ≠ []
  | _, [], h => absurd rfl h
  | ss, [s], _ => arrive_ne_nil file ss s
  | _, _ :: s' :: rest, _ => arriveAll_ne_nil file _ (s' :: rest) (List.cons_ne_nil _ _)

/-- What has an authority and a path of these segments, of which there is one at least. -/
structure Rooted (u : Url) (ss : List String) : Prop where
  authority : u.authority.isSome = true
  path : u.path = .segments ss
  some_segment : ss ≠ []
  slashless : Slashless ss

theorem rooted_withPath {u : Url} (authority : u.authority.isSome = true)
    (special : u.isSpecial = true) (notFile : u.isFile = false) (cs : List Char) :
    ∃ ss, Rooted (u.withPath cs) ss := by
  refine ⟨_, authority, rfl, ?_, ?_⟩
  · simp only [special, notFile, Bool.not_true, Bool.and_false, tidy]
    exact arriveAll_ne_nil _ _ _ (by simp [pathParts, List.splitOn_ne_nil])
  · simp only [special, notFile, Bool.not_true, Bool.and_false, Bool.false_eq_true, if_false]
    exact Slashless.tidy (.arriveAll _ _ (by simp [Slashless]) (slashless_pathParts _ _)) _

theorem rooted_of_afterSlashes {scheme : String} {cs : List Char} {u : Url}
    (parsed : afterSlashes scheme cs = .ok u) :
    u.scheme = scheme ∧ (u.isSpecial = true → u.isFile = false → ∃ ss, Rooted u ss) := by
  simp only [afterSlashes, bind, Except.bind] at parsed
  split at parsed
  · simp at parsed
  · obtain rfl := Except.ok.inj parsed
    exact ⟨rfl, fun special notFile => rooted_withPath rfl special notFile _⟩

theorem isFile_of_fileUrl {cs : List Char} {u : Url} (parsed : fileUrl cs = .ok u) :
    u.isFile = true := by
  simp only [fileUrl, bind, Except.bind, pure, Except.pure] at parsed
  -- Whatever becomes of the host, each branch ends in a URL of this scheme or in an error.
  repeat' split at parsed
  all_goals
    first
    | exact Except.ok.inj parsed ▸ rfl
    | exact nomatch parsed

theorem rooted_of_parse {base : String} {u : Url} (parsed : parse base = .ok u)
    (special : u.isSpecial = true) (notFile : u.isFile = false) : ∃ ss, Rooted u ss := by
  rw [parse] at parsed
  split at parsed
  · simp at parsed
  · next scheme cs _ =>
    split_ifs at parsed with file known
    · simp [isFile_of_fileUrl parsed] at notFile
    · exact (rooted_of_afterSlashes parsed).2 special notFile
    · -- The scheme of the URL is the one that was read, which is not special.
      split at parsed
      · have same := (rooted_of_afterSlashes parsed).1
        exact absurd (same ▸ special) known
      · obtain rfl := Except.ok.inj parsed
        exact absurd special known
      · obtain rfl := Except.ok.inj parsed
        exact absurd special known

theorem text_inj {u : Url} (authority : u.authority.isSome = true) (h : Slashless ss)
    (h' : Slashless ss')
    (same : ({ u with path := .segments ss } : Url).text =
      ({ u with path := .segments ss' } : Url).text) : ss = ss' := by
  obtain ⟨a, given⟩ := Option.isSome_iff_exists.1 authority
  refine path_text_inj h h' ?_
  simpa [text, given, queryText] using same

end Url
end CredentialSchema

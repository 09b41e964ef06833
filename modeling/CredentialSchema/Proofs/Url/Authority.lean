import Mathlib.Data.List.Basic
import CredentialSchema.Proofs.Lists
import CredentialSchema.Proofs.Url.Written

/-!
An authority is written without a slash. Credentials are encoded, an address is digits between dots
or colons, and a domain holds no character that is forbidden: what its labels are spelled with is
what they stand for, with letters, digits and hyphens for the characters outside ASCII.
-/
namespace CredentialSchema

theorem slash_not_mem_intercalate {sep : List Char} (hsep : '/' ∉ sep) :
    ∀ {parts : List (List Char)}, (∀ part ∈ parts, '/' ∉ part) → '/' ∉ sep.intercalate parts
  | [], _ => by simp
  | [part], h => by simpa using h
  | part :: next :: parts, h => by
    have rest := slash_not_mem_intercalate hsep fun p mem => h p (List.mem_cons_of_mem part mem)
    simp [List.intercalate_cons_cons, h part, hsep, rest]

theorem slash_not_mem_toDigits {b : Nat} (some : 0 < b) (hex : b ≤ 16) (n : Nat) :
    '/' ∉ Nat.toDigits b n := by
  have digit : ∀ d < 16, '/' ≠ Nat.digitChar d := by decide
  have core (fuel n : Nat) {ds : List Char} (h : '/' ∉ ds) :
      '/' ∉ Nat.toDigitsCore b fuel n ds := by
    induction fuel generalizing n ds with
    | zero => exact h
    | succ fuel ih =>
      have next := digit (n % b) (Nat.lt_of_lt_of_le (Nat.mod_lt n some) hex)
      have more : '/' ∉ Nat.digitChar (n % b) :: ds := List.not_mem_cons_of_ne_of_not_mem next h
      rw [Nat.toDigitsCore]
      split
      · exact more
      · exact ih _ more
  exact core _ _ List.not_mem_nil

theorem slash_ne_ofNat {n : Nat} (other : n ≠ 47) : '/' ≠ Char.ofNat n := by
  intro same
  by_cases valid : n.isValidChar
  · have value : (Char.ofNatAux n valid).toNat = n := by
      unfold Char.ofNatAux Char.toNat
      simp
    have chosen : Char.ofNat n = Char.ofNatAux n valid := dif_pos valid
    rw [← value, ← chosen, ← same] at other
    exact other rfl
  · have chosen : Char.ofNat n = Char.ofNat 0 := dif_neg valid
    rw [chosen] at same
    exact absurd same (by decide)

namespace Punycode

theorem slash_ne_digitChar (d : Nat) : '/' ≠ digitChar d :=
  slash_ne_ofNat (by split <;> omega)

theorem slash_not_mem_digits (bias weight count : Nat) : '/' ∉ digits bias weight count := by
  fun_induction digits bias weight count with
  | case1 => simp [slash_ne_digitChar]
  | case2 weight count t _ ih => simp [slash_ne_digitChar, t, ih]

theorem slash_not_mem_output {label : List Char} (points : List Nat) (next : Nat) (s : State)
    (h : '/' ∉ s.output) : '/' ∉ (insertAll label next points s).output := by
  have pass (point : Nat) (s : State) (c : Char) (h : '/' ∉ s.output) :
      '/' ∉ (pass point s c).output := by
    rw [Punycode.pass]
    split
    · exact h
    · split
      · simp [h, slash_not_mem_digits]
      · exact h
  induction points generalizing next s with
  | nil => exact h
  | cons point points ih =>
    refine ih _ _ ?_
    exact List.foldlRecOn label (Punycode.pass point) h fun s h c _ => pass point s c h

theorem slash_not_mem_encode {label : List Char} (h : '/' ∉ label) : '/' ∉ encode label := by
  have inserted : '/' ∉ insertions label := slash_not_mem_output _ _ _ List.not_mem_nil
  simp only [encode, List.mem_append, not_or, inserted, not_false_eq_true, and_true]
  split
  · exact List.not_mem_nil
  · simp [h]

theorem slash_not_mem_insertions? {fuel point place bias : Nat} {first : Bool}
    {label cs out : List Char} (h : '/' ∉ label)
    (read : insertions? fuel point place bias first label cs = some out) : '/' ∉ out := by
  fun_induction insertions? fuel point place bias first label cs with
  | case1 =>
    obtain rfl := Option.some.inj read
    exact h
  | case2 => exact absurd read nofun
  | case3 point place bias first label fuel cs _ ih =>
    obtain ⟨⟨count, rest⟩, -, read⟩ := Option.bind_eq_some_iff.1 read
    dsimp only at read
    split at read
    · exact absurd read nofun
    · next high =>
      refine ih count rest ?_ read
      simp only [Bool.or_eq_true, decide_eq_true_eq, not_or] at high
      have inserted := slash_ne_ofNat (n := point + (place + count) / (label.length + 1)) (by omega)
      have before (n : Nat) : '/' ∉ label.take n := fun slash => h (List.mem_of_mem_take slash)
      have behind (n : Nat) : '/' ∉ label.drop n := fun slash => h (List.mem_of_mem_drop slash)
      simp [inserted, before, behind]

theorem slash_not_mem_decode? {cs label : List Char} (h : '/' ∉ cs)
    (read : decode? cs = some label) : '/' ∉ label := by
  rw [decode?] at read
  split at read
  · exact absurd read nofun
  · exact slash_not_mem_insertions? (fun slash => h (List.mem_of_mem_take slash)) read

end Punycode

namespace Domain

theorem slash_not_mem_unescaped? {cs label : List Char} (h : '/' ∉ cs)
    (read : unescaped? cs = some label) : '/' ∉ label := by
  rw [unescaped?] at read
  split at read
  · obtain ⟨decoded, decode, read⟩ := Option.bind_eq_some_iff.1 read
    split at read
    · exact absurd read nofun
    · obtain rfl := Option.some.inj read
      exact Punycode.slash_not_mem_decode? (fun slash => h (List.mem_of_mem_drop slash)) decode
  · exact Option.some.inj read ▸ h

theorem slash_not_mem_written {label : List Char} (h : '/' ∉ label) : '/' ∉ written label := by
  rw [written]
  split
  · exact h
  · have start : '/' ∉ escape := by decide
    simp [start, Punycode.slash_not_mem_encode h]

theorem slash_not_mem_ofBytes? {bytes : List UInt8} {name : List Char}
    (read : ofBytes? bytes = some name) : '/' ∉ name := by
  obtain ⟨text, -, read⟩ := Option.bind_eq_some_iff.1 read
  obtain ⟨folded, -, read⟩ := Option.bind_eq_some_iff.1 read
  obtain ⟨labels, unescaped, read⟩ := Option.bind_eq_some_iff.1 read
  dsimp only at read
  split at read
  · exact absurd read nofun
  · next accepted =>
    obtain rfl := Option.some.inj read
    have plain : '/' ∉ folded := by
      intro slash
      have forbidden : folded.any isForbidden = true := List.any_eq_true.2 ⟨_, slash, by decide⟩
      simp [forbidden] at accepted
    refine slash_not_mem_intercalate (by decide) fun part mem => ?_
    obtain ⟨label, listed, rfl⟩ := List.mem_map.1 mem
    obtain ⟨spelled, isPart, read⟩ := exists_of_mem_mapM unescaped label listed
    refine slash_not_mem_written (slash_not_mem_unescaped? (fun slash => plain ?_) read)
    exact (of_mem_splitOnP isPart '/' slash).1

end Domain

namespace Url

theorem slash_not_mem_toString (n : Nat) : '/' ∉ (toString n).toList := by
  rw [Nat.toString_eq_repr, Nat.toList_repr]
  exact slash_not_mem_toDigits (by decide) (by decide) n

theorem Host.slash_not_mem_ipv4 (address : Nat) : '/' ∉ (Host.ipv4 address).text.toList := by
  rw [text, String.toList_intercalate]
  refine slash_not_mem_intercalate (by decide) fun part mem => ?_
  obtain ⟨text, listed, rfl⟩ := List.mem_map.1 mem
  obtain ⟨n, -, rfl⟩ := List.mem_map.1 listed
  exact slash_not_mem_toString n

theorem Host.slash_not_mem_ipv6 (pieces : List Nat) : '/' ∉ (Host.ipv6 pieces).text.toList := by
  have spelled (ps : List Nat) : '/' ∉ (piecesText ps).toList := by
    rw [piecesText, String.toList_intercalate]
    refine slash_not_mem_intercalate (by decide) fun part mem => ?_
    obtain ⟨text, listed, rfl⟩ := List.mem_map.1 mem
    obtain ⟨n, -, rfl⟩ := List.mem_map.1 listed
    rw [String.toList_ofList]
    exact slash_not_mem_toDigits (by decide) (by decide) n
  rw [text]
  split <;> simp [spelled]

theorem Host.slash_not_mem_special {cs : List Char} {h : Host} (read : Host.special cs = .ok h) :
    '/' ∉ h.text.toList := by
  rw [special] at read
  split at read
  · rw [bracketed?] at read
    split at read
    · split at read
      · obtain rfl := Except.ok.inj read
        exact slash_not_mem_ipv6 _
      · exact absurd read nofun
    · exact absurd read nofun
  · split at read
    · exact absurd read nofun
    · next name spelled =>
      split_ifs at read
      · split at read
        · obtain rfl := Except.ok.inj read
          exact slash_not_mem_ipv4 _
        · exact absurd read nofun
      · obtain rfl := Except.ok.inj read
        rw [text, String.toList_ofList]
        exact Domain.slash_not_mem_ofBytes? spelled

theorem Authority.slash_not_mem_text (user password : List Char) {host : Option Host}
    (port : Option Nat) (h : ∀ t ∈ host, '/' ∉ t.text.toList) :
    '/' ∉ (text ⟨.ofList (Percent.encode Percent.userinfo user),
      .ofList (Percent.encode Percent.userinfo password), host, port⟩).toList := by
  have encoded (cs : List Char) : '/' ∉ Percent.encode Percent.userinfo cs := fun slash =>
    absurd (Percent.slash_mem_encode slash).2 (by decide)
  have credentials : '/' ∉ (credentials ⟨.ofList (Percent.encode Percent.userinfo user),
      .ofList (Percent.encode Percent.userinfo password), host, port⟩).toList := by
    simp only [Authority.credentials]
    split
    · simp
    · split <;> simp [encoded]
  have named : '/' ∉ ((host.map Host.text).getD "").toList := by
    cases host with
    | none => simp
    | some t => exact h t rfl
  have numbered : '/' ∉ ((port.map fun p => ":" ++ toString p).getD "").toList := by
    cases port with
    | none => simp
    | some p => simpa using slash_not_mem_toString p
  simp only [text, String.toList_append, List.mem_append, credentials, named, numbered, or_self,
    not_false_eq_true]

theorem slash_not_mem_of_readAuthority {scheme : String} {cs rest : List Char} {a : Authority}
    (special : isSpecialScheme scheme = true) (read : readAuthority scheme cs = .ok (a, rest)) :
    '/' ∉ a.text.toList := by
  unfold readAuthority at read
  extract_lets isSpecial at read
  split at read
  next user hostPort _ =>
  split at read
  next hostText portText _ =>
  simp only [isSpecial, special, bind, Except.bind, pure, Except.pure, throw, throwThe,
    MonadExceptOf.throw] at read
  -- Whatever is left out, each branch ends in an authority of these parts or in an error.
  repeat' split at read
  all_goals
    first
    | contradiction
    | obtain ⟨rfl, -⟩ := Prod.mk.inj (Except.ok.inj read)
      refine Authority.slash_not_mem_text _ _ _ fun t given => ?_
      first
      | contradiction
      | exact Option.some.inj given ▸ Host.slash_not_mem_special (by assumption)

theorem slash_not_mem_of_afterSlashes {scheme : String} {cs : List Char} {u : Url}
    (special : isSpecialScheme scheme = true) (parsed : afterSlashes scheme cs = .ok u) :
    ∃ a, u.authority = some a ∧ '/' ∉ a.text.toList := by
  simp only [afterSlashes, bind, Except.bind] at parsed
  split at parsed
  · simp at parsed
  · next read =>
    obtain rfl := Except.ok.inj parsed
    exact ⟨_, rfl, slash_not_mem_of_readAuthority special read⟩

theorem slash_not_mem_of_parse {base : String} {u : Url} (parsed : parse base = .ok u)
    (special : u.isSpecial = true) (notFile : u.isFile = false) :
    ∃ a, u.authority = some a ∧ '/' ∉ a.text.toList := by
  rw [parse] at parsed
  split at parsed
  · simp at parsed
  · next scheme cs _ =>
    split_ifs at parsed with file known
    · simp [isFile_of_fileUrl parsed] at notFile
    · exact slash_not_mem_of_afterSlashes known parsed
    · split at parsed
      · have same := (rooted_of_afterSlashes parsed).1
        exact absurd (same ▸ special) known
      · obtain rfl := Except.ok.inj parsed
        exact absurd special known
      · obtain rfl := Except.ok.inj parsed
        exact absurd special known

end Url
end CredentialSchema

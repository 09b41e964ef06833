import CredentialSchema.Catalog.Client
import CredentialSchema.Proofs.Document.Reading
import CredentialSchema.Session.Basic

/-!
Calls to the catalogue, whatever the attempts come to. A call makes attempts up to the first one
that neither goes unanswered nor fails at the server, and four at most. The last attempt alone says
what the call comes to, and an import changes the tree only if that is a list. Which issuers are
offered is told by their documents: those of no status, and those whose status is the word ACTIVE.
-/
namespace CredentialSchema

namespace Outcome

/-- No answer came, or the server says that it failed. -/
def Failed (o : Outcome) : Prop :=
  o = .lost ∨ ∃ status body, o = .response status body ∧ 500 ≤ status ∧ status < 600

theorem isTransient_iff (o : Outcome) : o.isTransient = true ↔ o.Failed := by
  cases o <;> simp [isTransient, Failed]

/-- A text lists some items: it is a JSON array of which each element in turn loads as one. -/
def Lists (read : Document → Option α) (body : String) (items : List α) : Prop :=
  ∃ ds, Json.read? body = some (.sequence ds) ∧ List.Forall₂ (fun d a => read d = some a) ds items

/-- What a call comes to, by the outcome that decides. -/
inductive Answers (endpoint : String) (read : Document → Option α) :
    Outcome → Except CatalogError (List α) → Prop
  | lost : Answers endpoint read .lost (.error (.unanswered endpoint))
  | refused {status : Nat} {body : String} : ¬ (200 ≤ status ∧ status < 300) →
    Answers endpoint read (.response status body) (.error (.refused endpoint status body))
  | unreadable {status : Nat} {body : String} : 200 ≤ status ∧ status < 300 →
    (∀ items, ¬ Lists read body items) →
      Answers endpoint read (.response status body) (.error (.unreadable endpoint))
  | listed {status : Nat} {body : String} {items : List α} : 200 ≤ status ∧ status < 300 →
    Lists read body items → Answers endpoint read (.response status body) (.ok items)

variable {read : Document → Option α} {endpoint : String}

/-- A body has no plain scalar, so it is a list only as an array. -/
theorem lists_iff {body : String} {items : List α} :
    Lists read body items ↔ (Json.read? body).bind (Document.list? read) = some items := by
  rw [Option.bind_eq_some_iff]
  constructor
  · rintro ⟨ds, parsed, each⟩
    exact ⟨_, parsed, mapM_eq_some_iff.2 each⟩
  · rintro ⟨d, parsed, listed⟩
    have fromJson := Json.fromJson_read? parsed
    cases d with
    | sequence ds => exact ⟨ds, parsed, mapM_eq_some_iff.1 listed⟩
    | plain s => exact absurd fromJson id
    | _ => exact absurd listed nofun

theorem answers_decode (o : Outcome) : Answers endpoint read o (o.decode endpoint read) := by
  cases o with
  | lost => exact .lost
  | response status body =>
    rw [decode]
    split
    · next success =>
      split
      · next items listed => exact .listed success (lists_iff.2 listed)
      · next unread =>
        refine .unreadable success fun items listed => ?_
        rw [lists_iff.1 listed] at unread
        exact absurd unread nofun
    · next failure => exact .refused failure

theorem decode_eq_iff {o : Outcome} {r : Except CatalogError (List α)} :
    o.decode endpoint read = r ↔ Answers endpoint read o r := by
  refine ⟨fun same => same ▸ answers_decode o, fun answers => ?_⟩
  cases answers with
  | lost => rfl
  | refused failure => rw [decode, if_neg failure]
  | unreadable success unread =>
    rw [decode, if_pos success]
    split
    · next items listed => exact absurd (lists_iff.2 listed) (unread items)
    · rfl
  | listed success listed => rw [decode, if_pos success, lists_iff.1 listed]

/-- Loads an item and keeps the document that it is loaded from. -/
def beside (read : Document → Option α) (d : Document) : Option (Document × α) :=
  (read d).map (d, ·)

theorem lists_beside_iff {body : String} {listed : List (Document × α)} :
    Lists (beside read) body listed ↔
      Json.read? body = some (.sequence (listed.map Prod.fst)) ∧
        ∀ p ∈ listed, read p.1 = some p.2 := by
  have beside_iff (d : Document) (p : Document × α) :
      beside read d = some p ↔ p.1 = d ∧ read p.1 = some p.2 := by
    rw [beside, Option.map_eq_some_iff]
    constructor
    · rintro ⟨a, loaded, rfl⟩
      exact ⟨rfl, loaded⟩
    · rintro ⟨rfl, loaded⟩
      exact ⟨p.2, loaded, rfl⟩
  simp only [Lists, beside_iff]
  constructor
  · rintro ⟨ds, parsed, each⟩
    have documents : listed.map Prod.fst = ds := by
      rw [← List.forall₂_eq_eq_eq, List.forall₂_map_left_iff]
      exact each.flip.imp fun p d loaded => loaded.1
    refine ⟨documents ▸ parsed, fun p mem => ?_⟩
    obtain ⟨i, lt, rfl⟩ := List.getElem_of_mem mem
    exact (each.get (each.length_eq ▸ lt) lt).2
  · rintro ⟨parsed, loaded⟩
    refine ⟨_, parsed, List.forall₂_map_left_iff.2 (List.forall₂_same.2 fun p mem => ?_)⟩
    exact ⟨rfl, loaded p mem⟩

theorem exists_lists_beside {body : String} {items : List α} (h : Lists read body items) :
    ∃ listed, Lists (beside read) body listed ∧ listed.map Prod.snd = items := by
  obtain ⟨ds, parsed, each⟩ := h
  refine ⟨ds.zip items, lists_beside_iff.2 ⟨?_, fun p mem => ?_⟩, ?_⟩
  · rw [List.map_fst_zip each.length_eq.le, parsed]
  · exact (List.forall₂_iff_zip.1 each).2 mem
  · exact List.map_snd_zip each.length_eq.ge

theorem Answers.items {o : Outcome} {r : Except CatalogError (List (Document × α))}
    (h : Answers endpoint (beside read) o r) :
    Answers endpoint read o (r.map (List.map Prod.snd)) := by
  cases h with
  | lost => exact .lost
  | refused failure => exact .refused failure
  | unreadable success unread =>
    refine .unreadable success fun items lists => ?_
    obtain ⟨listed, lists, -⟩ := exists_lists_beside lists
    exact unread listed lists
  | @listed status body listed success lists =>
    obtain ⟨parsed, loaded⟩ := lists_beside_iff.1 lists
    refine .listed success ⟨_, parsed, ?_⟩
    rw [List.forall₂_map_left_iff, List.forall₂_map_right_iff]
    exact List.forall₂_same.2 loaded

theorem Answers.loaded {o : Outcome} {listed : List (Document × α)}
    (h : Answers endpoint (beside read) o (.ok listed)) : ∀ p ∈ listed, read p.1 = some p.2 := by
  cases h with
  | listed _ lists => exact (lists_beside_iff.1 lists).2

end Outcome

namespace Outcomes

/-- The attempt that decides, counted from one: the first that does not fail, or else the last that
is allowed. -/
structure Decides (o : Outcomes) (limit count : Nat) : Prop where
  pos : 0 < count
  le_limit : count ≤ limit
  before : ∀ i, i + 1 < count → (o i).Failed
  last : count < limit → ¬ (o (count - 1)).Failed

namespace Decides

variable {o : Outcomes} {limit k k' : Nat}

theorem not_lt (h : o.Decides limit k) (h' : o.Decides limit k') : ¬ k < k' := by
  intro earlier
  have pos := h.pos
  have bound := h'.le_limit
  exact h.last (by omega) (h'.before (k - 1) (by omega))

theorem unique (h : o.Decides limit k) (h' : o.Decides limit k') : k = k' := by
  have lower := h.not_lt h'
  have upper := h'.not_lt h
  omega

theorem first (limit : Nat) (stops : limit = 0 ∨ ¬ (o 0).Failed) : o.Decides (limit + 1) 1 := by
  refine ⟨Nat.one_pos, Nat.le_add_left 1 limit, fun i lt => ?_, fun more => ?_⟩
  · exact absurd lt (by omega)
  · exact stops.resolve_left (by omega)

theorem later (failed : (o 0).Failed) (h : (o.drop 1).Decides limit k) :
    o.Decides (limit + 1) (k + 1) := by
  have pos := h.pos
  refine ⟨Nat.succ_pos k, Nat.succ_le_succ h.le_limit, fun i lt => ?_, fun more => ?_⟩
  · cases i with
    | zero => exact failed
    | succ i =>
      rw [Nat.add_comm]
      exact h.before i (by omega)
  · have last := h.last (by omega)
    rw [drop] at last
    rwa [show k + 1 - 1 = 1 + (k - 1) by omega]

end Decides
end Outcomes

/-- The attempts go as far as the one that decides, and its outcome is what they come to. -/
theorem attempt_decides (retries : Nat) (o : Outcomes) :
    o.Decides (retries + 1) (attempt retries o).1 ∧
      (attempt retries o).2 = o ((attempt retries o).1 - 1) := by
  induction retries generalizing o with
  | zero => exact ⟨.first 0 (.inl rfl), rfl⟩
  | succ retries ih =>
    rw [attempt]
    by_cases transient : (o 0).isTransient = true
    · obtain ⟨decides, outcome⟩ := ih (o.drop 1)
      have pos := decides.pos
      rw [if_pos transient]
      refine ⟨.later ((o 0).isTransient_iff.1 transient) decides, outcome.trans ?_⟩
      change o (1 + ((attempt retries (o.drop 1)).1 - 1)) =
        o ((attempt retries (o.drop 1)).1 + 1 - 1)
      congr 1
      omega
    · rw [if_neg transient]
      exact ⟨.first _ (.inr (mt (o 0).isTransient_iff.2 transient)), rfl⟩

theorem Document.variant?_eq_bind (byName : String → Option α) (d : Document) :
    d.variant? byName = (d.variant? some).bind byName := by
  rw [variant?.eq_def, variant?.eq_def]
  split <;> simp

theorem EntityStatus.ofText_eq_active_iff {s : String} : ofText s = .active ↔ s = "ACTIVE" := by
  constructor
  · intro isActive
    cases found : [active, inactive, suspended].find? fun e => e.text == s with
    | none => simp [ofText, found] at isActive
    | some e =>
      rw [ofText, found, Option.getD_some] at isActive
      subst isActive
      have word := List.find?_some found
      exact (eq_of_beq word).symm
  · rintro rfl
    rfl

namespace Issuer

/-- What the document of an issuer tells as its status. -/
def statusIn? (d : Document) : Option Document :=
  (d.fields? ["id", "name", "decentralizedIdentifier", "status", "tags"]).bind (·.get? "status")

/-- Whether the document of an issuer tells no status, or null, or the word ACTIVE. -/
def isOfferedIn (d : Document) : Bool :=
  (statusIn? d).all fun s => s.isAbsent || s.variant? some == some "ACTIVE"

theorem isOffered_of_ofDocument? {d : Document} {i : Issuer} (h : ofDocument? d = some i) :
    i.isOffered = isOfferedIn d := by
  simp only [ofDocument?, Option.bind_eq_bind, Option.bind_eq_some_iff] at h
  obtain ⟨f, fields, id, -, name, -, decentralized, -, status, told, tags, -, made⟩ := h
  obtain rfl := Option.some.inj made
  rw [isOfferedIn, statusIn?, fields, Option.bind_some]
  cases here : f.get? "status" with
  | none =>
    simp only [Fields.optional, here, Option.some.injEq] at told
    rw [isOffered, ← told]
    rfl
  | some s =>
    simp only [Fields.optional, here, Document.optional?] at told
    rw [isOffered, Option.all_some]
    split at told
    · next absent =>
      rw [← Option.some.inj told, absent]
      rfl
    · next given =>
      obtain ⟨e, word, rfl⟩ := Option.map_eq_some_iff.1 told
      rw [EntityStatus.ofDocument?, Document.variant?_eq_bind] at word
      obtain ⟨w, named, isStatus⟩ := Option.bind_eq_some_iff.1 word
      obtain rfl := Option.some.inj isStatus
      rw [Bool.eq_iff_iff]
      simp [given, named, EntityStatus.ofText_eq_active_iff]

end Issuer

namespace CatalogClient

open Outcome (Answers beside)

variable (c : CatalogClient) {o : Outcomes} {k : Nat} (decides : o.Decides 4 k)

include decides

theorem call_decided (url : Url) (decode : Outcome → Except CatalogError α) :
    (c.call url decode o).attempts = k ∧ (c.call url decode o).result = decode (o (k - 1)) := by
  obtain ⟨decided, outcome⟩ := attempt_decides maxRetries o
  obtain rfl := decided.unique decides
  exact ⟨rfl, congrArg decode outcome⟩

theorem listEntries_decided (classification : String) :
    (c.listEntries classification o).attempts = k ∧
      (c.listEntries classification o).result =
        (o (k - 1)).decode entriesEndpoint CatalogEntry.ofDocument? :=
  c.call_decided decides _ _

theorem listIssuers_decided :
    (c.listIssuers o).attempts = k ∧
      (c.listIssuers o).result =
        ((o (k - 1)).decode issuersEndpoint (beside Issuer.ofDocument?)).map
          fun listed => (listed.filter fun p => Issuer.isOfferedIn p.1).map Prod.snd := by
  obtain ⟨count, result⟩ := c.call_decided decides
    (withQuery c.issuers [("tag", "issuer"), ("status", "ACTIVE")])
    fun last => (last.decode issuersEndpoint Issuer.ofDocument?).map (·.filter Issuer.isOffered)
  refine ⟨count, result.trans ?_⟩
  have answers : Answers issuersEndpoint (beside Issuer.ofDocument?) (o (k - 1)) _ :=
    Outcome.answers_decode _
  rw [Outcome.decode_eq_iff.2 answers.items]
  cases answer : (o (k - 1)).decode issuersEndpoint (beside Issuer.ofDocument?) with
  | error e => rfl
  | ok listed =>
    rw [answer] at answers
    have offered : ∀ p ∈ listed, p.2.isOffered = Issuer.isOfferedIn p.1 := fun p mem =>
      Issuer.isOffered_of_ofDocument? (answers.loaded p mem)
    simp only [Except.map, List.filter_map]
    exact congrArg _ (congrArg _ (List.filter_congr offered))

theorem importFrom_of_undecoded (classification : String)
    (none_listed : ∀ entries,
      ¬ Answers entriesEndpoint CatalogEntry.ofDocument? (o (k - 1)) (.ok entries))
    (s : Session) (target : Option PropertyId) (source : IdSource) :
    let fetched := (c.listEntries classification o).result.map (List.map CatalogEntry.candidate)
    ∃ e, (s.importFrom target fetched source).1 = .error e ∧
      (s.importFrom target fetched source).2.tree = s.tree := by
  intro fetched
  obtain ⟨-, result⟩ := c.listEntries_decided decides classification
  cases answer : (o (k - 1)).decode entriesEndpoint CatalogEntry.ofDocument? with
  | ok entries => exact absurd (Outcome.decode_eq_iff.1 answer) (none_listed entries)
  | error e =>
    have failed : fetched = .error e := by
      rw [answer] at result
      exact congrArg (Except.map (List.map CatalogEntry.candidate)) result
    rw [failed]
    exact ⟨e, rfl, rfl⟩

omit decides

/-- Whatever the attempts come to, some attempt decides. Both calls make as many attempts as it
takes to come to it, and its outcome alone says what they come to: an error, or the entries in
order, of the issuers those whose documents tell no status or the word ACTIVE. Unless that outcome
is a list of entries, an import through the client fails and leaves the tree as it was. -/
theorem calls_decided (c : CatalogClient) (classification : String) (o : Outcomes) :
    (∃ k, o.Decides 4 k) ∧ ∀ k, o.Decides 4 k →
      ((c.listEntries classification o).attempts = k ∧
        ∀ r, (c.listEntries classification o).result = r ↔
          Answers entriesEndpoint CatalogEntry.ofDocument? (o (k - 1)) r) ∧
      ((c.listIssuers o).attempts = k ∧
        ∀ r, (c.listIssuers o).result = r ↔
          ∃ all, Answers issuersEndpoint (beside Issuer.ofDocument?) (o (k - 1)) all ∧
            r = all.map fun listed =>
              (listed.filter fun p => Issuer.isOfferedIn p.1).map Prod.snd) ∧
      ∀ (s : Session) (target : Option PropertyId) (source : IdSource),
        (∀ entries, ¬ Answers entriesEndpoint CatalogEntry.ofDocument? (o (k - 1)) (.ok entries)) →
        let fetched := (c.listEntries classification o).result.map (List.map CatalogEntry.candidate)
        ∃ e, (s.importFrom target fetched source).1 = .error e ∧
          (s.importFrom target fetched source).2.tree = s.tree := by
  obtain ⟨some_decides, -⟩ := attempt_decides maxRetries o
  refine ⟨⟨_, some_decides⟩, fun k decides => ⟨?_, ?_, ?_⟩⟩
  · obtain ⟨count, result⟩ := c.listEntries_decided decides classification
    exact ⟨count, fun r => by rw [result, Outcome.decode_eq_iff]⟩
  · obtain ⟨count, result⟩ := c.listIssuers_decided decides
    refine ⟨count, fun r => ?_⟩
    rw [result]
    constructor
    · rintro rfl
      exact ⟨_, Outcome.answers_decode _, rfl⟩
    · rintro ⟨all, answers, rfl⟩
      rw [Outcome.decode_eq_iff.2 answers]
  · intro s target source none_listed
    exact c.importFrom_of_undecoded decides classification none_listed s target source

/-- Lost, refused by a failing server, answered at the third attempt; a failing server that then
redirects; and one that then lists issuers of any status, of which it gives the active ones and
those that tell none. -/
theorem calls_decided_third_attempt :
    let client : CatalogClient :=
      ⟨"Bearer t", ⟨"https", none, .segments ["properties"], none, none⟩,
        ⟨"https", none, .segments ["entities"], none, none⟩⟩
    let listing := "[\x7b\"id\":\"vp-1\",\"name\":\"salary\",\"valueType\":\"currency\"\x7d]"
    let bank (n : Nat) (rest : List (String × Json.Value)) : Json.Value :=
      .object (("id", .string (Uuid.numbered n).text) :: ("name", .string "Bank") :: rest)
    let banks : Json.Value := .array [bank 1 [("status", .string "ACTIVE")], bank 2 [],
      bank 3 [("status", .string "SUSPENDED")], bank 4 [("status", .null)],
      bank 5 [("status", .string "active")]]
    let answered : Outcomes := fun i =>
      if i = 0 then .lost else .response (if i = 1 then 503 else 200) listing
    let moved : Outcomes := fun i => .response (if i = 0 then 500 else 302) "moved"
    let staffed : Outcomes := fun i =>
      .response (if i = 0 then 500 else 200) (banks.pretty ++ "\n")
    let s := Session.start (.new ⟨Uuid.numbered 0⟩ { title := "Person" })
    answered.Decides 4 3 ∧ moved.Decides 4 2 ∧ staffed.Decides 4 2 ∧
      (client.listEntries "kyc" answered).attempts = 3 ∧
      (client.listEntries "kyc" answered).result = .ok
        [{ candidate := { id := "vp-1", name := "salary", valueType := "currency" } }] ∧
      (client.listIssuers moved).attempts = 2 ∧
      (client.listIssuers moved).result = .error (.refused issuersEndpoint 302 "moved") ∧
      (client.listIssuers staffed).attempts = 2 ∧
      (client.listIssuers staffed).result = .ok
        [{ id := Uuid.numbered 1, name := "Bank", status := some .active },
          { id := Uuid.numbered 2, name := "Bank" }, { id := Uuid.numbered 4, name := "Bank" }] ∧
      ∃ e, (s.importFrom none ((client.listEntries "kyc" moved).result.map
          (List.map CatalogEntry.candidate)) ⟨Uuid.numbered, 0⟩).1 = .error e := by
  intro client listing bank banks answered moved staffed s
  have third : answered.Decides 4 3 := by
    refine ⟨by decide, by decide, fun i lt => ?_, fun _ => ?_⟩
    · obtain rfl | rfl : i = 0 ∨ i = 1 := by omega
      · exact .inl rfl
      · exact .inr ⟨503, listing, rfl, by decide, by decide⟩
    · exact mt (Outcome.isTransient_iff _).2 (by decide)
  have second {status : Nat} {body : String} (stops : ¬ (500 ≤ status ∧ status < 600)) :
      Outcomes.Decides (fun i => .response (if i = 0 then 500 else status) body) 4 2 := by
    refine ⟨by decide, by decide, fun i lt => ?_, fun _ => ?_⟩
    · obtain rfl : i = 0 := by omega
      exact .inr ⟨500, body, rfl, by decide, by decide⟩
    · rintro (lost | ⟨_, _, same, bounds⟩)
      · exact absurd lost nofun
      · obtain ⟨rfl, -⟩ := Outcome.response.inj same
        exact stops bounds
  have redirected : moved.Decides 4 2 := second (by decide)
  have answered_late : staffed.Decides 4 2 := second (by decide)
  have refused : Answers issuersEndpoint (beside Issuer.ofDocument?) (moved (2 - 1))
      (.error (.refused issuersEndpoint 302 "moved")) := .refused (by decide)
  let listed : List (Document × Issuer) := [
    (.ofValue (bank 1 [("status", .string "ACTIVE")]),
      ⟨.numbered 1, "Bank", none, some .active, []⟩),
    (.ofValue (bank 2 []), ⟨.numbered 2, "Bank", none, none, []⟩),
    (.ofValue (bank 3 [("status", .string "SUSPENDED")]),
      ⟨.numbered 3, "Bank", none, some .suspended, []⟩),
    (.ofValue (bank 4 [("status", .null)]), ⟨.numbered 4, "Bank", none, none, []⟩),
    (.ofValue (bank 5 [("status", .string "active")]),
      ⟨.numbered 5, "Bank", none, some .unknown, []⟩)]
  have parsed : Json.read? (banks.pretty ++ "\n") = some (.sequence (listed.map Prod.fst)) := by
    have inRange : banks.InRange := by
      simp [banks, bank, Json.Value.InRange, Json.Value.InRangeItems, Json.Value.InRangeMembers]
    rw [Json.read?_pretty inRange]
    rfl
  have each : ∀ p ∈ listed, Issuer.ofDocument? p.1 = some p.2 := by decide +kernel
  have lists : Answers issuersEndpoint (beside Issuer.ofDocument?) (staffed (2 - 1)) (.ok listed) :=
    .listed (by decide) (Outcome.lists_beside_iff.2 ⟨parsed, each⟩)
  obtain ⟨⟨count, result⟩, -, -⟩ := (client.calls_decided "kyc" answered).2 3 third
  obtain ⟨-, ⟨count', result'⟩, unlisted⟩ := (client.calls_decided "kyc" moved).2 2 redirected
  obtain ⟨-, ⟨count'', result''⟩, -⟩ := (client.calls_decided "kyc" staffed).2 2 answered_late
  refine ⟨third, redirected, answered_late, count,
    (result _).2 (Outcome.decode_eq_iff.1 (by decide +kernel)), count',
    (result' _).2 ⟨_, refused, rfl⟩, count'',
    (result'' _).2 ⟨_, lists, by decide +kernel⟩, ?_⟩
  obtain ⟨e, failed, -⟩ := unlisted s none ⟨Uuid.numbered, 0⟩ fun entries listed => by
    cases listed with
    | listed success => exact absurd success (by decide)
  exact ⟨e, failed⟩

end CatalogClient
end CredentialSchema

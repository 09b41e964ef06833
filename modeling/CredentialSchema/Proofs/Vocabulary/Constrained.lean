import CredentialSchema.Catalog.Client
import CredentialSchema.Proofs.Document.Reading
import CredentialSchema.Proofs.Property.Loaded
import CredentialSchema.Proofs.Tree.Change

/-!
Constraints through an import. A candidate takes its constraints from a part of its document, and
an import puts them into the innermost level of what it adds, with the format that the value type
implies. Nothing else in the tree changes, so what held of every constraint and of those of the
candidates holds of every constraint afterwards.
-/
namespace CredentialSchema

open Constraints (Loaded)
open Document (Each)
open Property (Everywhere everywhere_nil everywhere_append everywhere_cons withMember)

variable {P : Document → Prop} {C : Constraints → Prop}

/-- What is asked of constraints is asked of something else than their format. -/
structure Constraints.FormatFree (C : Constraints → Prop) : Prop where
  unset : C {}
  reformat : ∀ c format, C c → C { c with format }

theorem Constraints.storable_formatFree : FormatFree Storable :=
  ⟨⟨trivial, trivial⟩, fun _ _ h => h⟩

theorem Constraints.finite_formatFree : FormatFree Finite :=
  ⟨⟨by simp, by simp⟩, fun _ _ h => ⟨h.minimum, h.maximum⟩⟩

namespace Candidate

def Constrained (C : Constraints → Prop) (c : Candidate) : Prop := ∀ k ∈ c.constraints, C k

theorem constrained_of_document (part : Loaded P C) {d : Document} {c : Candidate}
    (each : Each P d) (h : ofDocument? d = some c) : c.Constrained C := by
  obtain ⟨f, fields, h⟩ := Option.bind_eq_some_iff.1 h
  obtain ⟨id, -, h⟩ := Option.bind_eq_some_iff.1 h
  obtain ⟨name, -, h⟩ := Option.bind_eq_some_iff.1 h
  obtain ⟨displayName, -, h⟩ := Option.bind_eq_some_iff.1 h
  obtain ⟨description, -, h⟩ := Option.bind_eq_some_iff.1 h
  obtain ⟨valueType, -, h⟩ := Option.bind_eq_some_iff.1 h
  obtain ⟨constraints, given, h⟩ := Option.bind_eq_some_iff.1 h
  obtain rfl := Option.some.inj h
  exact Constraints.of_optional part (Document.each_fields? fields each) given

theorem constrained_of_file (part : Loaded P C)
    (resolve : ∀ s, P (.plain s) → Each P (Plain.resolve s)) {d : Document}
    {cs : List Candidate} (each : Each P d) (h : listOfFile? d = some cs) :
    ∀ c ∈ cs, c.Constrained C := by
  obtain ⟨settled, settle, h⟩ := Option.bind_eq_some_iff.1 h
  have each := Document.each_settle? resolve d settle each
  split at h
  · next listed =>
    obtain rfl := Option.some.inj h
    intro c mem
    obtain ⟨d, item, read⟩ := Document.loads_list? listed each c mem
    exact constrained_of_document part item read
  · obtain ⟨f, fields, h⟩ := Option.bind_eq_some_iff.1 h
    obtain ⟨d, items, listed⟩ := Fields.loads_required (Document.each_fields? fields each) h
    intro c mem
    obtain ⟨d, item, read⟩ := Document.loads_list? listed items c mem
    exact constrained_of_document part item read

variable (free : Constraints.FormatFree C) {c : Candidate} (given : c.Constrained C)

include free given

theorem mergedConstraints_of_constrained (format : Option String) :
    C (c.mergedConstraints format) := by
  refine free.reformat _ _ ?_
  cases present : c.constraints with
  | none => exact free.unset
  | some k => exact given k present

theorem constrained_shaped (shape : Shape) {d : Declaration} (bare : d.constraints = none)
    (s : IdSource) : Everywhere (Property.Constrained C) [c.shaped shape d s] := by
  have unset (ms : List Property) (e : Option Property) :
      Property.Constrained C ⟨d, ms, e⟩ := by simp [Property.Constrained, bare]
  induction shape generalizing d s with
  | scalar kind format =>
    rw [shaped]
    by_cases empty : (c.mergedConstraints format).isEmpty
    · simpa [empty, everywhere_cons] using unset [] none
    · have merged := mergedConstraints_of_constrained free given format
      simpa [empty, everywhere_cons, Property.Constrained] using merged
  | listOf element ih =>
    rw [shaped, everywhere_cons]
    exact ⟨unset _ _, everywhere_nil, ih rfl _ (by simp [Property.Constrained]), everywhere_nil⟩

end Candidate

theorem CatalogEntry.constrained_of_document (part : Loaded P C) {d : Document}
    {e : CatalogEntry} (each : Each P d) (h : ofDocument? d = some e) :
    e.candidate.Constrained C := by
  obtain ⟨f, fields, h⟩ := Option.bind_eq_some_iff.1 h
  obtain ⟨id, -, h⟩ := Option.bind_eq_some_iff.1 h
  obtain ⟨name, -, h⟩ := Option.bind_eq_some_iff.1 h
  obtain ⟨displayName, -, h⟩ := Option.bind_eq_some_iff.1 h
  obtain ⟨description, -, h⟩ := Option.bind_eq_some_iff.1 h
  obtain ⟨valueType, -, h⟩ := Option.bind_eq_some_iff.1 h
  obtain ⟨constraints, given, h⟩ := Option.bind_eq_some_iff.1 h
  obtain ⟨classification, -, h⟩ := Option.bind_eq_some_iff.1 h
  obtain ⟨updatedAt, -, h⟩ := Option.bind_eq_some_iff.1 h
  obtain rfl := Option.some.inj h
  exact Constraints.of_optional part (Document.each_fields? fields each) given

theorem Outcome.exists_of_decode_eq_ok {endpoint : String} {read : Document → Option α}
    {o : Outcome} {items : List α} (h : o.decode endpoint read = .ok items) :
    ∃ d, Each Document.FromJson d ∧ d.list? read = some items := by
  cases o with
  | lost => simp [decode] at h
  | response status body =>
    rw [decode] at h
    split at h
    · split at h
      · next items' read =>
        obtain rfl := Except.ok.inj h
        obtain ⟨d, parsed, listed⟩ := Option.bind_eq_some_iff.1 read
        exact ⟨d, Json.fromJson_read? parsed, listed⟩
      · simp at h
    · simp at h

theorem CatalogClient.constrained_of_listEntries (part : Loaded Document.FromJson C)
    {client : CatalogClient} {classification : String} {o : Outcomes} {entries : List CatalogEntry}
    (h : (client.listEntries classification o).result = .ok entries) :
    ∀ k ∈ entries.map CatalogEntry.candidate, k.Constrained C := by
  obtain ⟨d, each, listed⟩ := Outcome.exists_of_decode_eq_ok h
  intro k mem
  obtain ⟨e, entry, rfl⟩ := List.mem_map.1 mem
  obtain ⟨d, item, read⟩ := Document.loads_list? listed each e entry
  exact CatalogEntry.constrained_of_document part item read

namespace Tree

variable {t t' : Tree} {target : Option PropertyId}

theorem constrained_place? {q : Property} (h : t.place? target q = some t')
    (everywhere : Everywhere (Property.Constrained C) t.roots)
    (inner : Everywhere (Property.Constrained C) [q]) :
    Everywhere (Property.Constrained C) t'.roots := by
  rcases place?_splice h with ⟨rfl, -⟩ | ⟨id, p, rfl, -, spliced⟩
  · obtain rfl := Option.some.inj h
    exact (everywhere_append _ _).2 ⟨everywhere, inner⟩
  · refine spliced.everywhere (fun d ms ms' e _ here => here) (fun d ms e e' _ _ here => here)
      (fun hp => ?_) everywhere
    obtain ⟨d, ms, e⟩ := p
    rw [withMember]
    rw [everywhere_cons] at hp ⊢
    exact ⟨hp.1, (everywhere_append ms [q]).2 ⟨hp.2.1, inner⟩, hp.2.2⟩

theorem Imports.constrained (free : Constraints.FormatFree C) {drawn : List PropertyId}
    {cs : List Candidate} {report report' : ImportReport}
    (h : Imports target drawn cs t report t' report')
    (everywhere : Everywhere (Property.Constrained C) t.roots)
    (given : ∀ c ∈ cs, c.Constrained C) : Everywhere (Property.Constrained C) t'.roots := by
  induction h with
  | done t report => exact everywhere
  | skip obstacle _ ih => exact ih everywhere fun c mem => given c (List.mem_cons_of_mem _ mem)
  | @take c cs t placed next t' report report' s _ ids place same _ ih =>
    refine ih (same ▸ constrained_place? place everywhere ?_)
      fun c mem => given c (List.mem_cons_of_mem _ mem)
    exact Candidate.constrained_shaped free (given c List.mem_cons_self) _ rfl _

end Tree
end CredentialSchema

import CredentialSchema.Proofs.Property.Patch
import CredentialSchema.Proofs.Property.Splice

/-!
What holds of every property in a forest. A splice keeps it, if it holds of what is put in and
of each property on the way down, whose members or whose element definition are spliced. A patch
keeps it, if it outlives a renaming of the chain and the loss of members or element.
-/
namespace CredentialSchema.Property

/-- Every property in a list or below it has it. -/
def Everywhere (P : Property → Prop) (ps : List Property) : Prop := ∀ p ∈ subtreeOfList ps, P p

variable {P : Property → Prop}

@[simp] theorem everywhere_nil : Everywhere P [] := by simp [Everywhere, subtreeOfList]

@[simp] theorem everywhere_append (ps qs : List Property) :
    Everywhere P (ps ++ qs) ↔ Everywhere P ps ∧ Everywhere P qs := by
  rw [Everywhere, subtreeOfList_append, List.forall_mem_append]
  rfl

theorem everywhere_iff_each (ps : List Property) :
    Everywhere P ps ↔ ∀ p ∈ ps, Everywhere P [p] := by
  induction ps with
  | nil => simp
  | cons p ps ih => rw [← List.singleton_append, everywhere_append, List.forall_mem_append, ih,
      List.forall_mem_singleton]

theorem everywhere_cons (d : Declaration) (ms : List Property) (e : Option Property)
    (ps : List Property) :
    Everywhere P (⟨d, ms, e⟩ :: ps) ↔
      P ⟨d, ms, e⟩ ∧ Everywhere P ms ∧ Everywhere P e.toList ∧ Everywhere P ps := by
  rw [Everywhere, subtreeOfList, List.forall_mem_append, subtree, List.forall_mem_cons,
    List.forall_mem_append, subtreeOfOption_eq]
  simp only [and_assoc]
  rfl

theorem mem_subtreeOfList_cons (p d ms e before after) :
    p ∈ subtreeOfList (before ++ ⟨d, ms, e⟩ :: after) ↔
      p ∈ subtreeOfList before ∨ p = ⟨d, ms, e⟩ ∨ p ∈ subtreeOfList ms ∨
        p ∈ subtreeOfList e.toList ∨ p ∈ subtreeOfList after := by
  simp [subtreeOfList, subtree]

theorem Splice.everywhere {old new ps qs : List Property} (h : Splice old new ps qs)
    (members : ∀ d ms ms' e, Splice old new ms ms' → P ⟨d, ms, e⟩ → P ⟨d, ms', e⟩)
    (element : ∀ d ms e e', ⟨d, ms, e⟩ ∈ subtreeOfList ps →
      Splice old new e.toList e'.toList → P ⟨d, ms, e⟩ → P ⟨d, ms, e'⟩)
    (inner : Everywhere P old → Everywhere P new) (hps : Everywhere P ps) : Everywhere P qs := by
  induction h with
  | here before after =>
    simp only [everywhere_append] at hps ⊢
    exact ⟨⟨hps.1.1, inner hps.1.2⟩, hps.2⟩
  | inMembers before after d e spliced ih =>
    rw [everywhere_append, everywhere_cons] at hps ⊢
    obtain ⟨hbefore, here, hms, he, hafter⟩ := hps
    refine ⟨hbefore, members _ _ _ _ spliced here, ih ?_ hms, he, hafter⟩
    exact fun d' ms' e' e'' mem => element d' ms' e' e''
      ((mem_subtreeOfList_cons ..).2 (.inr (.inr (.inl mem))))
  | inElement before after d ms spliced ih =>
    rw [everywhere_append, everywhere_cons] at hps ⊢
    obtain ⟨hbefore, here, hms, he, hafter⟩ := hps
    refine ⟨hbefore, element _ _ _ _ ((mem_subtreeOfList_cons ..).2 (.inr (.inl rfl))) spliced here,
      hms, ih ?_ he, hafter⟩
    exact fun d' ms' e' e'' mem => element d' ms' e' e''
      ((mem_subtreeOfList_cons ..).2 (.inr (.inr (.inr (.inl mem)))))

mutual
theorem everywhere_renameChain {name : String}
    (rename : ∀ d ms e, P ⟨d, ms, e⟩ → P ⟨{ d with name }, ms, renameElement name e⟩) :
    ∀ p : Property, Everywhere P [p] → Everywhere P [renameChain name p]
  | ⟨d, ms, e⟩, h => by
    rw [renameChain]
    rw [everywhere_cons] at h ⊢
    obtain ⟨here, hms, he, hnil⟩ := h
    exact ⟨rename d ms e here, hms, everywhere_renameElement rename e he, hnil⟩

theorem everywhere_renameElement {name : String}
    (rename : ∀ d ms e, P ⟨d, ms, e⟩ → P ⟨{ d with name }, ms, renameElement name e⟩) :
    ∀ e : Option Property, Everywhere P e.toList → Everywhere P (renameElement name e).toList
  | none, h => h
  | some p, h => everywhere_renameChain rename p h
end

theorem everywhere_patch (u : Patch) {p : Property}
    (rename : ∀ name d ms e, P ⟨d, ms, e⟩ → P ⟨{ d with name }, ms, renameElement name e⟩)
    (shrink : ∀ d d' ms ms' e e', d'.name = d.name → ms' = ms ∨ ms' = [] →
      e' = e ∨ e' = none → P ⟨d, ms, e⟩ → P ⟨d', ms', e'⟩)
    (h : Everywhere P [p]) : Everywhere P [patch u p] := by
  refine patch_induct (motive := fun q => Everywhere P [q]) u h
    (fun name q => everywhere_renameChain (rename name) q) ?_ ?_
  · rintro d ⟨d', ms, e⟩ - sameName - - hq
    rw [everywhere_cons] at hq ⊢
    exact ⟨shrink d' d ms ms e e sameName (.inl rfl) (.inl rfl) hq.1, hq.2⟩
  · rintro kind ⟨d, ms, e⟩ hq
    rw [changeKind]
    split
    · exact hq
    · rw [everywhere_cons] at hq ⊢
      obtain ⟨here, hms, he, hnil⟩ := hq
      refine ⟨shrink d _ ms _ e _ rfl ?_ ?_ here, ?_, ?_, hnil⟩
      · split <;> simp
      · split <;> simp
      · split
        · exact hms
        · exact everywhere_nil
      · split
        · exact he
        · exact everywhere_nil

end CredentialSchema.Property

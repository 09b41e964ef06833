import Mathlib.Data.List.Forall2
import Mathlib.Order.Lattice

/-!
Lists. What a mapped partial function gives says something of every element: it gives a result if
each element has one, and each result comes from an element. What is left of a list without its
repetitions stands in the order of first occurrence.
-/
namespace CredentialSchema

universe u v

variable {α : Type u} {β : Type v}

theorem map_eq_map_iff_forall₂ {γ : Type*} {f : α → γ} {g : β → γ} {as : List α} {bs : List β} :
    as.map f = bs.map g ↔ List.Forall₂ (fun a b => f a = g b) as bs := by
  rw [← List.forall₂_map_right_iff (R := fun a c => f a = c),
    ← List.forall₂_map_left_iff (R := fun c c' => c = c'), List.forall₂_eq_eq_eq]

theorem forall₂_mem {R : α → β → Prop} {as : List α} {bs : List β} (h : List.Forall₂ R as bs) :
    List.Forall₂ (fun a b => a ∈ as ∧ b ∈ bs ∧ R a b) as bs := by
  induction h with
  | nil => exact .nil
  | @cons a b as bs first _ ih =>
    refine .cons ⟨List.mem_cons_self, List.mem_cons_self, first⟩ (ih.imp ?_)
    rintro a' b' ⟨mem, mem', related⟩
    exact ⟨.tail a mem, .tail b mem', related⟩

theorem exists_forall₂ {R : α → β → Prop} {bs : List β} (h : ∀ b ∈ bs, ∃ a, R a b) :
    ∃ as, List.Forall₂ R as bs := by
  induction bs with
  | nil => exact ⟨[], .nil⟩
  | cons b bs ih =>
    rw [List.forall_mem_cons] at h
    obtain ⟨⟨a, first⟩, others⟩ := h
    obtain ⟨as, related⟩ := ih others
    exact ⟨a :: as, .cons first related⟩

theorem lookup_eq_some_iff_mem [BEq α] [LawfulBEq α] {l : List (α × β)}
    (distinct : (l.map Prod.fst).Nodup) {a : α} {b : β} : l.lookup a = some b ↔ (a, b) ∈ l := by
  rw [List.lookup_eq_some_iff]
  constructor
  · rintro ⟨before, after, rfl, -⟩
    simp
  · intro mem
    obtain ⟨before, after, rfl⟩ := List.append_of_mem mem
    rw [List.map_append, List.map_cons, List.nodup_append] at distinct
    obtain ⟨-, -, apart⟩ := distinct
    refine ⟨before, after, rfl, fun p earlier => bne_iff_ne.2 (Ne.symm ?_)⟩
    exact apart p.1 (List.mem_map_of_mem earlier) a List.mem_cons_self

/-- The elements of a list, each once, in the order in which they come first. -/
structure InFirstOrder [BEq α] (l firsts : List α) : Prop where
  mem_iff : ∀ a, a ∈ firsts ↔ a ∈ l
  ordered : firsts.Pairwise fun a b => l.idxOf a < l.idxOf b

theorem InFirstOrder.nodup [BEq α] {l firsts : List α} (h : InFirstOrder l firsts) :
    firsts.Nodup := by
  refine h.ordered.imp ?_
  rintro a b before rfl
  exact Nat.lt_irrefl _ before

theorem idxOf_filter_lt_iff [BEq α] [LawfulBEq α] {keep : α → Bool} (l : List α) {a b : α}
    (kept : keep a) (kept' : keep b) :
    (l.filter keep).idxOf a < (l.filter keep).idxOf b ↔ l.idxOf a < l.idxOf b := by
  induction l with
  | nil => rfl
  | cons c l ih =>
    cases head : keep c with
    | true =>
      rw [List.filter_cons_of_pos head]
      cases here : c == a <;> cases here' : c == b <;> simp [List.idxOf_cons, here, here', ih]
    | false =>
      have other {a : α} (kept : keep a) : (c == a) = false := by
        refine beq_eq_false_iff_ne.2 ?_
        rintro rfl
        simp [head] at kept
      rw [List.filter_cons_of_neg (by simp [head]), ih]
      simp [List.idxOf_cons, other kept, other kept']

theorem InFirstOrder.filter [BEq α] [LawfulBEq α] {l firsts : List α} (h : InFirstOrder l firsts)
    (keep : α → Bool) : InFirstOrder (l.filter keep) (firsts.filter keep) := by
  refine ⟨fun a => by simp [h.mem_iff], ?_⟩
  rw [List.pairwise_filter]
  exact h.ordered.imp fun before kept kept' => (idxOf_filter_lt_iff l kept kept').2 before

theorem InFirstOrder.cons [BEq α] [LawfulBEq α] {l firsts : List α} {a : α}
    (h : InFirstOrder (l.filter (· != a)) firsts) : InFirstOrder (a :: l) (a :: firsts) := by
  have behind {b : α} (mem : b ∈ firsts) : b ≠ a := by
    have kept := (List.mem_filter.1 ((h.mem_iff b).1 mem)).2
    simpa using kept
  have later {b : α} (mem : b ∈ firsts) : (a :: l).idxOf b = l.idxOf b + 1 :=
    List.idxOf_cons_ne l (behind mem).symm
  constructor
  · intro b
    by_cases same : b = a <;> simp [same, h.mem_iff]
  · rw [List.pairwise_cons]
    refine ⟨fun b mem => by simp [later mem], h.ordered.imp_of_mem fun mem mem' before => ?_⟩
    rw [later mem, later mem', Nat.add_lt_add_iff_right]
    exact (idxOf_filter_lt_iff l (by simpa using behind mem) (by simpa using behind mem')).1 before

theorem inFirstOrder_eraseDups [BEq α] [LawfulBEq α] (l : List α) :
    InFirstOrder l l.eraseDups := by
  match l with
  | [] => exact ⟨by simp, .nil⟩
  | a :: l =>
    rw [List.eraseDups_cons]
    exact .cons (inFirstOrder_eraseDups _)
termination_by l.length
decreasing_by exact Nat.lt_succ_of_le (List.length_filter_le _ _)

theorem nodup_eraseDups [BEq α] [LawfulBEq α] (l : List α) : l.eraseDups.Nodup :=
  (inFirstOrder_eraseDups l).nodup

theorem flatMap_filter (keep : α → Bool) (f : α → List β) (l : List α) :
    (l.filter keep).flatMap f = l.flatMap fun a => if keep a then f a else [] := by
  induction l with
  | nil => rfl
  | cons a l ih => cases h : keep a <;> simp [h, ih]

theorem of_mem_splitOnP {p : α → Bool} {l piece : List α} (h : piece ∈ l.splitOnP p) :
    ∀ a ∈ piece, a ∈ l ∧ p a = false := by
  induction l generalizing piece with
  | nil =>
    rw [List.splitOnP_nil, List.mem_singleton] at h
    simp [h]
  | cons b l ih =>
    have kept {piece : List α} (mem : piece ∈ l.splitOnP p) :
        ∀ a ∈ piece, a ∈ b :: l ∧ p a = false :=
      fun a mem' => (ih mem a mem').imp_left (List.mem_cons_of_mem b)
    rw [List.splitOnP_cons_eq_if_modifyHead] at h
    split at h
    · rcases List.mem_cons.1 h with rfl | later
      · simp
      · exact kept later
    · next other =>
      obtain ⟨first, later, split⟩ := List.exists_cons_of_ne_nil (List.splitOnP_ne_nil p l)
      rw [split, List.modifyHead_cons, List.mem_cons] at h
      rcases h with rfl | mem
      · rw [List.forall_mem_cons]
        exact ⟨⟨List.mem_cons_self, by simpa using other⟩, kept (by simp [split])⟩
      · exact kept (by simp [split, mem])

theorem mapM_eq_some_iff {f : α → Option β} {as : List α} {bs : List β} :
    as.mapM f = some bs ↔ List.Forall₂ (fun a b => f a = some b) as bs := by
  induction as generalizing bs with
  | nil => cases bs <;> simp
  | cons a as ih =>
    rw [List.mapM_cons, Option.bind_eq_bind, Option.bind_eq_some_iff, List.forall₂_cons_left_iff]
    refine exists_congr fun b => ?_
    simp only [Option.bind_eq_bind, Option.bind_eq_some_iff, Option.pure_def, Option.some.injEq, ih]
    constructor
    · rintro ⟨first, bs', others, rfl⟩
      exact ⟨bs', first, others, rfl⟩
    · rintro ⟨bs', first, others, rfl⟩
      exact ⟨first, bs', others, rfl⟩

theorem exists_of_mem_mapM {f : α → Option β} {as : List α} {bs : List β}
    (h : as.mapM f = some bs) : ∀ b ∈ bs, ∃ a ∈ as, f a = some b := by
  induction as generalizing bs with
  | nil =>
    obtain rfl := Option.some.inj h
    simp
  | cons a as ih =>
    rw [List.mapM_cons] at h
    obtain ⟨b, first, h⟩ := Option.bind_eq_some_iff.1 h
    obtain ⟨bs', others, h⟩ := Option.bind_eq_some_iff.1 h
    obtain rfl := Option.some.inj h
    rintro b' (_ | ⟨_, mem⟩)
    · exact ⟨a, List.mem_cons_self, first⟩
    · obtain ⟨a', mem', same⟩ := ih others b' mem
      exact ⟨a', .tail a mem', same⟩

theorem isSome_mapM_iff (f : α → Option β) (l : List α) :
    (l.mapM f).isSome ↔ ∀ a ∈ l, (f a).isSome := by
  induction l with
  | nil => simp
  | cons a l ih =>
    rw [List.mapM_cons, List.forall_mem_cons, ← ih]
    cases f a <;> cases l.mapM f <;> simp

theorem mapM_guarded {holds : α → Bool} {g : α → β} {f : α → Option β} {l : List α}
    (h : ∀ a ∈ l, f a = if holds a then some (g a) else none) :
    l.mapM f = if l.all holds then some (l.map g) else none := by
  induction l with
  | nil => rfl
  | cons a l ih =>
    rw [List.forall_mem_cons] at h
    rw [List.mapM_cons, h.1, ih h.2, List.all_cons]
    cases holds a <;> cases l.all holds <;> rfl

theorem foldlM_eq_error_iff {σ ε : Type*} {f : σ → α → Except ε σ} {l : List α} {s : σ} {e : ε} :
    l.foldlM f s = .error e ↔ ∃ before a after s', l = before ++ a :: after ∧
      before.foldlM f s = .ok s' ∧ f s' a = .error e := by
  induction l generalizing s with
  | nil =>
    constructor
    · exact nofun
    · rintro ⟨before, a, after, s', split, -⟩
      simp at split
  | cons x l ih =>
    rw [List.foldlM_cons]
    cases first : f s x with
    | error e' =>
      constructor
      · rintro ⟨⟩
        exact ⟨[], x, l, s, rfl, rfl, first⟩
      · rintro ⟨_ | ⟨y, before⟩, a, after, s', split, passed, refused⟩
        · obtain ⟨rfl, rfl⟩ := List.cons.inj split
          obtain rfl := Except.ok.inj passed
          exact first.symm.trans refused
        · obtain ⟨rfl, rfl⟩ := List.cons.inj split
          rw [List.foldlM_cons, first] at passed
          cases passed
    | ok s₁ =>
      refine ih.trans ⟨?_, ?_⟩
      · rintro ⟨before, a, after, s', rfl, passed, refused⟩
        refine ⟨x :: before, a, after, s', rfl, ?_, refused⟩
        rw [List.foldlM_cons, first]
        exact passed
      · rintro ⟨_ | ⟨y, before⟩, a, after, s', split, passed, refused⟩
        · obtain ⟨rfl, rfl⟩ := List.cons.inj split
          obtain rfl := Except.ok.inj passed
          rw [first] at refused
          cases refused
        · obtain ⟨rfl, rfl⟩ := List.cons.inj split
          rw [List.foldlM_cons, first] at passed
          exact ⟨before, a, after, s', rfl, passed, refused⟩

theorem mergeSort_congr {le le' : α → α → Bool} {l : List α}
    (same : ∀ a ∈ l, ∀ b ∈ l, le a b = le' a b) : l.mergeSort le = l.mergeSort le' := by
  simpa using List.map_mergeSort (f := id) same

theorem pairwise_mergeSort_key [LinearOrder β] (le : α → α → Bool) (key : α → β)
    (by_key : ∀ a b, le a b = true ↔ key a ≤ key b) (l : List α) :
    (l.mergeSort le).Pairwise fun a b => key a ≤ key b := by
  have trans (a b c : α) (h : le a b = true) (h' : le b c = true) : le a c = true := by
    rw [by_key] at h h' ⊢
    exact le_trans h h'
  have total (a b : α) : (le a b || le b a) = true := by
    simpa [by_key] using le_total (key a) (key b)
  exact (List.pairwise_mergeSort trans total l).imp (by_key _ _).1

end CredentialSchema

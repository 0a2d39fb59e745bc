import Mathlib.Data.List.Basic
import Mathlib.Tactic.Common
import ShaderAssist.Completion.Item

/-!
# Arranged items

Of the items with one label the one that comes first in order is shown (`mem_arrange_iff`), so every label that is
offered is shown (`exists_mem_arrange_iff`). An item that is put in anywhere does not change the order of the
others, because items with equal keys keep their order (`interspersed_ordered`). So it can only take the place of
items with its own label.
-/

namespace ShaderAssist

/-! ### Lists with elements put in -/

section Interspersed

variable {α β : Type} {P : α → Prop}

/-- The second list is the first one with elements put in that all have a property. -/
inductive Interspersed (P : α → Prop) : List α → List α → Prop where
  | nil : Interspersed P [] []
  | keep (a : α) {l l' : List α} : Interspersed P l l' → Interspersed P (a :: l) (a :: l')
  | put {a : α} {l l' : List α} : P a → Interspersed P l l' → Interspersed P l (a :: l')

namespace Interspersed

variable {a : α} {l l' k k' : List α}

theorem refl (P : α → Prop) : ∀ l : List α, Interspersed P l l
  | [] => .nil
  | a :: l => .keep a (refl P l)

theorem of_forall : ∀ {l : List α}, (∀ a ∈ l, P a) → Interspersed P [] l
  | [], _ => .nil
  | _ :: _, h => .put (h _ List.mem_cons_self) (of_forall fun b hb => h b (List.mem_cons_of_mem _ hb))

theorem append (h : Interspersed P l l') (h' : Interspersed P k k') : Interspersed P (l ++ k) (l' ++ k') := by
  induction h with
  | nil => exact h'
  | keep a _ ih => exact .keep a ih
  | put ha _ ih => exact .put ha ih

theorem flatMap {f g : β → List α} (h : ∀ b, Interspersed P (f b) (g b)) :
    ∀ bs : List β, Interspersed P (bs.flatMap f) (bs.flatMap g)
  | [] => .nil
  | b :: bs => by
    rw [List.flatMap_cons, List.flatMap_cons]
    exact (h b).append (flatMap h bs)

theorem filter (q : α → Bool) (h : Interspersed P l l') : Interspersed P (l.filter q) (l'.filter q) := by
  induction h with
  | nil => exact .nil
  | keep a _ ih =>
    rw [List.filter_cons, List.filter_cons]
    split_ifs
    · exact .keep a ih
    · exact ih
  | put ha _ ih =>
    rw [List.filter_cons]
    split_ifs
    · exact .put ha ih
    · exact ih

theorem subset (h : Interspersed P l l') (ha : a ∈ l) : a ∈ l' := by
  induction h with
  | nil => exact ha
  | keep b _ ih =>
    rcases List.mem_cons.mp ha with rfl | ha
    · exact List.mem_cons_self
    · exact List.mem_cons_of_mem b (ih ha)
  | put _ _ ih => exact List.mem_cons_of_mem _ (ih ha)

/-- What does not have the property was there before. -/
theorem mem_or (h : Interspersed P l l') (ha : a ∈ l') : a ∈ l ∨ P a := by
  induction h with
  | nil => exact Or.inl ha
  | keep b _ ih =>
    rcases List.mem_cons.mp ha with rfl | ha
    · exact Or.inl List.mem_cons_self
    · exact (ih ha).imp_left (List.mem_cons_of_mem b)
  | put hb _ ih =>
    rcases List.mem_cons.mp ha with rfl | ha
    · exact Or.inr hb
    · exact ih ha

/-- What is found first and does not have the property was found first before. -/
theorem find? {q : α → Bool} (h : Interspersed P l l') (ha : l'.find? q = some a) (hP : ¬ P a) :
    l.find? q = some a := by
  induction h with
  | nil => exact ha
  | keep b _ ih =>
    rw [List.find?_cons] at ha ⊢
    cases hb : q b with
    | true =>
      rw [hb] at ha
      exact ha
    | false =>
      rw [hb] at ha
      exact ih ha
  | @put b _ _ hb _ ih =>
    rw [List.find?_cons] at ha
    cases hq : q b with
    | true =>
      rw [hq] at ha
      exact absurd (Option.some.inj ha ▸ hb) hP
    | false =>
      rw [hq] at ha
      exact ih ha

/-- Two lists that a test divides at one place are related piece by piece. -/
theorem of_append (q : α → Bool) (h : Interspersed P (l ++ k) (l' ++ k')) (hl : ∀ b ∈ l, q b) (hl' : ∀ b ∈ l', q b)
    (hk : ∀ b ∈ k, q b = false) (hk' : ∀ b ∈ k', q b = false) : Interspersed P l l' ∧ Interspersed P k k' := by
  have hnot (b : List α) (hb : ∀ c ∈ b, q c = false) : b.filter q = [] ∧ b.filter (fun c => !q c) = b := by
    refine ⟨List.filter_eq_nil_iff.mpr fun c hc => ?_, List.filter_eq_self.mpr fun c hc => ?_⟩
    · rw [hb c hc]
      exact Bool.false_ne_true
    · rw [hb c hc]
      rfl
  have hall (b : List α) (hb : ∀ c ∈ b, q c) : b.filter q = b ∧ b.filter (fun c => !q c) = [] := by
    refine ⟨List.filter_eq_self.mpr hb, List.filter_eq_nil_iff.mpr fun c hc => ?_⟩
    rw [hb c hc]
    exact Bool.false_ne_true
  have hfirst := h.filter q
  have hsecond := h.filter fun c => !q c
  simp only [List.filter_append, (hall l hl).1, (hall l hl).2, (hall l' hl').1, (hall l' hl').2, (hnot k hk).1,
    (hnot k hk).2, (hnot k' hk').1, (hnot k' hk').2, List.append_nil, List.nil_append] at hfirst hsecond
  exact ⟨hfirst, hsecond⟩

/-- An element with the property can be put in at any place. -/
theorem insert (h : Interspersed P l (k ++ k')) (ha : P a) : Interspersed P l (k ++ a :: k') := by
  induction k generalizing l with
  | nil => exact .put ha h
  | cons b k ih =>
    cases h with
    | keep _ h => exact .keep b (ih h)
    | put hb h => exact .put hb (ih h)

end Interspersed

end Interspersed

namespace CompletionItem

variable {i : CompletionItem} {items items' : List CompletionItem} {P : CompletionItem → Prop}

/-! ### The order of items -/

theorem sortKey_trans (i j k : CompletionItem) : decide (i.sortKey ≤ j.sortKey) → decide (j.sortKey ≤ k.sortKey) →
    decide (i.sortKey ≤ k.sortKey) :=
  fun hij hjk => decide_eq_true (String.le_trans (of_decide_eq_true hij) (of_decide_eq_true hjk))

theorem sortKey_total (i j : CompletionItem) : decide (i.sortKey ≤ j.sortKey) || decide (j.sortKey ≤ i.sortKey) := by
  rw [Bool.or_eq_true, decide_eq_true_iff, decide_eq_true_iff]
  exact String.le_total _ _

/-- One more item in front goes before the items that are not smaller. -/
theorem ordered_cons (i : CompletionItem) (items : List CompletionItem) : ∃ before after,
    ordered (i :: items) = before ++ i :: after ∧ ordered items = before ++ after ∧
      (∀ j ∈ before, ¬ i.sortKey ≤ j.sortKey) ∧ ∀ j ∈ after, i.sortKey ≤ j.sortKey := by
  obtain ⟨before, after, hcons, hitems, hbefore⟩ := List.mergeSort_cons sortKey_trans sortKey_total i items
  have hsorted := List.pairwise_mergeSort sortKey_trans sortKey_total (i :: items)
  rw [hcons, List.pairwise_append, List.pairwise_cons] at hsorted
  refine ⟨before, after, hcons, hitems, fun j hj => ?_, fun j hj => of_decide_eq_true (hsorted.2.1.1 j hj)⟩
  have := hbefore j hj
  rw [Bool.not_eq_true', decide_eq_false_iff_not] at this
  exact this

/-- **Items that are put in** leave the order of the others as it is. -/
theorem interspersed_ordered (h : Interspersed P items items') : Interspersed P (ordered items) (ordered items') := by
  induction h with
  | nil =>
    rw [ordered, List.mergeSort_nil]
    exact .nil
  | @keep i items items' _ ih =>
    obtain ⟨before, after, hcons, heq, hbefore, hafter⟩ := ordered_cons i items
    obtain ⟨before', after', hcons', heq', hbefore', hafter'⟩ := ordered_cons i items'
    rw [heq, heq'] at ih
    have hsplit := ih.of_append (fun j => !decide (i.sortKey ≤ j.sortKey)) (by simpa using hbefore)
      (by simpa using hbefore') (by simpa using hafter) (by simpa using hafter')
    rw [hcons, hcons']
    exact hsplit.1.append (.keep i hsplit.2)
  | @put i items items' hi _ ih =>
    obtain ⟨before', after', hcons', heq', -, -⟩ := ordered_cons i items'
    rw [heq'] at ih
    rw [hcons']
    exact ih.insert hi

/-! ### One item for each label -/

/-- An item is kept if it is the first one with its label. -/
theorem mem_distinct_iff : i ∈ distinct items ↔ items.find? (fun j => j.label == i.label) = some i := by
  induction items with
  | nil => simp [distinct]
  | cons j items ih =>
    rw [distinct, List.mem_cons, List.mem_filter, ih, List.find?_cons]
    by_cases hlabel : j.label = i.label
    · simp [hlabel, eq_comm]
    · have hne : i ≠ j := fun h => hlabel (h ▸ rfl)
      have hother : (j.label == i.label) = false := beq_false_of_ne hlabel
      rw [hother]
      simp [hne, Ne.symm hlabel]

/-- An item is shown if it is the first one with its label in order. -/
theorem mem_arrange_iff : i ∈ arrange items ↔ (ordered items).find? (fun j => j.label == i.label) = some i :=
  mem_distinct_iff

theorem mem_ordered_iff : i ∈ ordered items ↔ i ∈ items :=
  List.mem_mergeSort

theorem mem_of_mem_arrange (h : i ∈ arrange items) : i ∈ items :=
  mem_ordered_iff.mp (List.mem_of_find?_eq_some (mem_arrange_iff.mp h))

/-- **Every label that is offered is shown**, and no other one. -/
theorem exists_mem_arrange_iff {label : String} :
    (∃ j ∈ arrange items, j.label = label) ↔ ∃ j ∈ items, j.label = label := by
  constructor
  · rintro ⟨j, hj, hlabel⟩
    exact ⟨j, mem_of_mem_arrange hj, hlabel⟩
  · rintro ⟨j, hj, rfl⟩
    have hsome : ((ordered items).find? fun k => k.label == j.label).isSome :=
      List.find?_isSome.mpr ⟨j, mem_ordered_iff.mpr hj, by simp⟩
    obtain ⟨k, hk⟩ := Option.isSome_iff_exists.mp hsome
    have hlabel : k.label = j.label := by simpa using List.find?_some hk
    refine ⟨k, mem_arrange_iff.mpr ?_, hlabel⟩
    rw [hlabel]
    exact hk

end CompletionItem

end ShaderAssist

import Mathlib.Data.List.Sort
import Mathlib.Logic.Relation
import ShaderAssist.Proofs.Match.Preorder

/-!
# Nodes that count

Of the attempts that a node holds only the best one counts, the first of those that came furthest
(`bestAttempt_eq_some_iff`), so a node of a tree counts if the way to it leads through the best attempt
wherever it leads through attempts (`MatchTree.IsLive`). `MatchTree.live` lists exactly these nodes in
ascending order (`IsPreorder.live_eq_filter`). It is the order in which a walk with a stack meets them
(`IsPreorder.walks_live`).
-/

namespace ShaderAssist

/-! ### The first maximum of a list -/

section FirstMax

variable {α κ : Type} [LinearOrder κ] {key : α → κ} {l : List α} {b c : α}

/-- The first one of some elements with the greatest key. -/
def IsFirstMax (key : α → κ) (l : List α) (c : α) : Prop :=
  ∃ before after, l = before ++ c :: after ∧ (∀ x ∈ before, key x < key c) ∧ ∀ x ∈ after, key x ≤ key c

theorem IsFirstMax.mem (h : IsFirstMax key l c) : c ∈ l := by
  obtain ⟨before, after, rfl, -⟩ := h
  exact List.mem_append_right _ List.mem_cons_self

theorem isFirstMax_cons_iff : IsFirstMax key (b :: l) c ↔
    (c = b ∧ ∀ x ∈ l, key x ≤ key b) ∨ (key b < key c ∧ IsFirstMax key l c) := by
  constructor
  · rintro ⟨before, after, heq, hbefore, hafter⟩
    rcases before with _ | ⟨_, before⟩
    · obtain ⟨rfl, rfl⟩ := List.cons.inj heq
      exact Or.inl ⟨rfl, hafter⟩
    · obtain ⟨rfl, rfl⟩ := List.cons.inj heq
      exact Or.inr ⟨hbefore b List.mem_cons_self, before, after, rfl,
        fun x hx => hbefore x (List.mem_cons_of_mem b hx), hafter⟩
  · rintro (⟨rfl, hl⟩ | ⟨hlt, before, after, rfl, hbefore, hafter⟩)
    · exact ⟨[], l, rfl, by simp, hl⟩
    · exact ⟨b :: before, after, rfl, by simpa using ⟨hlt, hbefore⟩, hafter⟩

theorem not_isFirstMax_nil : ¬ IsFirstMax key [] c := fun h => List.not_mem_nil h.mem

/-- A step that takes another element only for a greater key. -/
def KeepsFirstMax (key : α → κ) (f : Option α → α → Option α) (l : List α) : Prop :=
  ∀ x ∈ l, f none x = some x ∧ ∀ y ∈ l, f (some x) y = if key x < key y then some y else some x

theorem KeepsFirstMax.subset {f : Option α → α → Option α} {l' : List α} (h : KeepsFirstMax key f l) (hsub : l' ⊆ l) :
    KeepsFirstMax key f l' :=
  fun x hx => ⟨(h x (hsub hx)).1, fun y hy => (h x (hsub hx)).2 y (hsub hy)⟩

theorem foldl_some_eq_some_iff {f : Option α → α → Option α} : ∀ {l : List α} {b : α},
    KeepsFirstMax key f (b :: l) → (l.foldl f (some b) = some c ↔ IsFirstMax key (b :: l) c)
  | [], b, _ => by
    rw [List.foldl_nil, Option.some.injEq, isFirstMax_cons_iff]
    simp [not_isFirstMax_nil, eq_comm]
  | x :: l, b, hf => by
    have hx : KeepsFirstMax key f (x :: l) := hf.subset (List.subset_cons_self b _)
    have hb : KeepsFirstMax key f (b :: l) := hf.subset (List.cons_subset_cons b (List.subset_cons_self x l))
    rw [List.foldl_cons, (hf b List.mem_cons_self).2 x (List.mem_cons_of_mem b List.mem_cons_self)]
    split_ifs with hlt
    · rw [foldl_some_eq_some_iff hx, isFirstMax_cons_iff (b := b)]
      constructor
      · intro hc
        have hxc : key x ≤ key c := by
          rcases isFirstMax_cons_iff.mp hc with ⟨rfl, -⟩ | ⟨hlt, -⟩
          · exact le_rfl
          · exact le_of_lt hlt
        exact Or.inr ⟨lt_of_lt_of_le hlt hxc, hc⟩
      · rintro (⟨rfl, hall⟩ | ⟨-, hc⟩)
        · exact absurd hlt (not_lt.mpr (hall x List.mem_cons_self))
        · exact hc
    · have hle : key x ≤ key b := not_lt.mp hlt
      rw [foldl_some_eq_some_iff hb, isFirstMax_cons_iff, isFirstMax_cons_iff (b := b),
        isFirstMax_cons_iff (b := x), List.forall_mem_cons]
      constructor
      · rintro (⟨rfl, hl⟩ | ⟨hbc, hc⟩)
        · exact Or.inl ⟨rfl, hle, hl⟩
        · exact Or.inr ⟨hbc, Or.inr ⟨lt_of_le_of_lt hle hbc, hc⟩⟩
      · rintro (⟨rfl, -, hl⟩ | ⟨hbc, ⟨rfl, -⟩ | ⟨-, hc⟩⟩)
        · exact Or.inl ⟨rfl, hl⟩
        · exact absurd hbc hlt
        · exact Or.inr ⟨hbc, hc⟩

theorem isSome_foldl_some {f : Option α → α → Option α} : ∀ {l : List α} {b : α},
    KeepsFirstMax key f (b :: l) → (l.foldl f (some b)).isSome
  | [], _, _ => rfl
  | x :: l, b, hf => by
    rw [List.foldl_cons, (hf b List.mem_cons_self).2 x (List.mem_cons_of_mem b List.mem_cons_self)]
    split_ifs
    · exact isSome_foldl_some (hf.subset (List.subset_cons_self b _))
    · exact isSome_foldl_some (hf.subset (List.cons_subset_cons b (List.subset_cons_self x l)))

theorem foldl_eq_none_iff {f : Option α → α → Option α} (hf : KeepsFirstMax key f l) :
    l.foldl f none = none ↔ l = [] := by
  cases l with
  | nil => simp
  | cons b l =>
    have hsome := isSome_foldl_some hf
    rw [List.foldl_cons, (hf b List.mem_cons_self).1]
    exact iff_of_false (fun hnone => by rw [hnone] at hsome; cases hsome) (List.cons_ne_nil b l)

/-- **A fold that takes another element only for a greater key** finds the first maximum. -/
theorem foldl_eq_some_iff_isFirstMax {f : Option α → α → Option α} (hf : KeepsFirstMax key f l) :
    l.foldl f none = some c ↔ IsFirstMax key l c := by
  cases l with
  | nil => simp [not_isFirstMax_nil]
  | cons b l =>
    rw [List.foldl_cons, (hf b List.mem_cons_self).1]
    exact foldl_some_eq_some_iff hf

end FirstMax

namespace MatchTree

variable {t : MatchTree} {a b c p x y : NodeId} {ids : List NodeId}

theorem isEmpty_iff : t.isEmpty ↔ t.size = 0 := Array.isEmpty_iff_size_eq_zero

/-! ### The best attempt -/

theorem keepsFirstMax_better (t : MatchTree) (ids : List NodeId) : KeepsFirstMax t.stop t.better ids := by
  refine fun x _ => ⟨rfl, fun y _ => ?_⟩
  rw [better]
  split_ifs with hle hlt hlt
  · exact absurd hlt (Nat.not_lt.mpr hle)
  · rfl
  · rfl
  · exact absurd (Nat.not_lt.mp hlt) hle

/-- **The best attempt** is the first child that reaches furthest. -/
theorem bestAttempt_eq_some_iff : t.bestAttempt a = some c ↔ IsFirstMax t.stop (t.children a) c :=
  foldl_eq_some_iff_isFirstMax (t.keepsFirstMax_better (t.children a))

theorem mem_children_of_bestAttempt (h : t.bestAttempt a = some c) : c ∈ t.children a :=
  (bestAttempt_eq_some_iff.mp h).mem

/-! ### Ways that count -/

/-- Whether the children of a node are attempts. -/
def holdsAttempts (t : MatchTree) (id : NodeId) : Bool :=
  (t.node? id).any fun n => n.holdsAttempts

theorem liveChildren_of_holdsAttempts (h : t.holdsAttempts a) :
    t.liveChildren a = (t.bestAttempt a).toList := by
  unfold holdsAttempts at h
  unfold liveChildren
  cases hn : t.node? a with
  | none => simp [hn] at h
  | some n =>
    rw [hn] at h
    exact if_pos h

theorem liveChildren_of_not_holdsAttempts (h : ¬ t.holdsAttempts a) : t.liveChildren a = t.children a := by
  unfold holdsAttempts at h
  unfold liveChildren children
  cases hn : t.node? a with
  | none => rfl
  | some n =>
    rw [hn] at h
    exact if_neg h

theorem liveChildren_sublist (t : MatchTree) (a : NodeId) : (t.liveChildren a).Sublist (t.children a) := by
  by_cases h : t.holdsAttempts a
  · rw [liveChildren_of_holdsAttempts h]
    rcases hc : t.bestAttempt a with _ | c
    · exact List.nil_sublist _
    · exact List.singleton_sublist.mpr (mem_children_of_bestAttempt hc)
  · rw [liveChildren_of_not_holdsAttempts h]

/-- A node counts if the way to it leads through the best attempt wherever it leads through attempts. -/
def IsLive (t : MatchTree) (x : NodeId) : Prop :=
  x.index < t.size ∧ ∀ a ∈ t.ancestors x, t.holdsAttempts a →
    ∃ c ∈ t.bestAttempt a, c ∈ x :: t.ancestors x

instance (t : MatchTree) (x : NodeId) : Decidable (t.IsLive x) :=
  inferInstanceAs (Decidable (_ ∧ _))

theorem mem_ids_iff : x ∈ t.ids ↔ x.index < t.size := by
  unfold ids
  rw [List.mem_map]
  constructor
  · rintro ⟨i, hi, rfl⟩
    exact List.mem_range.mp hi
  · exact fun hx => ⟨x.index, List.mem_range.mpr hx, rfl⟩

theorem pairwise_ids (t : MatchTree) : t.ids.Pairwise fun x y => x.index < y.index :=
  List.pairwise_map.mpr List.pairwise_lt_range

/-- A way down a tree along children that count. -/
def LiveWay (t : MatchTree) : NodeId → NodeId → Prop :=
  Relation.ReflTransGen fun p c => c ∈ t.liveChildren p

theorem liveWay_of_mem_liveUpTo {n : Nat} (hx : x ∈ t.liveUpTo n a) : t.LiveWay a x := by
  induction n generalizing a with
  | zero => simp [liveUpTo] at hx
  | succ n ih =>
    rw [liveUpTo] at hx
    rcases List.mem_cons.mp hx with rfl | hx
    · exact .refl
    · obtain ⟨c, hc, hx⟩ := List.mem_flatMap.mp hx
      exact .head hc (ih hx)

section Preorder

variable (h : t.IsPreorder)

include h

theorem IsPreorder.parent?_of_mem_liveChildren (hc : c ∈ t.liveChildren p) : t.parent? c = some p :=
  h.mem_children_iff.mp ((t.liveChildren_sublist p).subset hc)

theorem IsPreorder.eq_or_mem_ancestors_of_liveWay (hx : t.LiveWay a x) : x = a ∨ a ∈ t.ancestors x := by
  induction hx with
  | refl => exact Or.inl rfl
  | tail _ hc ih =>
    refine Or.inr ((mem_ancestors_iff h.parentsFirst).mpr ⟨_, h.parent?_of_mem_liveChildren hc, ?_⟩)
    rcases ih with rfl | ih
    · exact Or.inl rfl
    · exact Or.inr ih

/-- A child that counts of a node that counts. -/
theorem IsPreorder.isLive_of_mem_liveChildren (hp : t.IsLive p) (hx : x ∈ t.liveChildren p) :
    t.IsLive x := by
  have hparent := h.parent?_of_mem_liveChildren hx
  refine ⟨lt_size_of_parent? hparent, ?_⟩
  rw [ancestors_of_parent? h.parentsFirst hparent]
  intro a ha hattempts
  rcases List.mem_cons.mp ha with rfl | ha
  · rw [liveChildren_of_holdsAttempts hattempts, Option.mem_toList] at hx
    exact ⟨x, hx, List.mem_cons_self⟩
  · obtain ⟨c, hc, hmem⟩ := hp.2 a ha hattempts
    exact ⟨c, hc, List.mem_cons_of_mem x hmem⟩

/-- The parent of a node that counts, and the last step of the way to it. -/
theorem IsPreorder.isLive_parent (hx : t.IsLive x) (hparent : t.parent? x = some p) :
    t.IsLive p ∧ x ∈ t.liveChildren p := by
  have hfirst := h.parentsFirst
  have hlt := hfirst hparent
  have hup := ancestors_of_parent? hfirst hparent
  have hbest : ∀ a ∈ t.ancestors x, t.holdsAttempts a →
      ∃ c, t.bestAttempt a = some c ∧ t.parent? c = some a ∧ (c = x ∨ c ∈ p :: t.ancestors p) := by
    intro a ha hattempts
    obtain ⟨c, hc, hmem⟩ := hx.2 a ha hattempts
    rw [hup, List.mem_cons] at hmem
    exact ⟨c, hc, h.mem_children_iff.mp (mem_children_of_bestAttempt hc), hmem⟩
  refine ⟨⟨Nat.lt_trans hlt hx.1, fun a ha hattempts => ?_⟩, ?_⟩
  · obtain ⟨c, hc, hca, rfl | hmem⟩ := hbest a (by rw [hup]; exact List.mem_cons_of_mem p ha) hattempts
    · -- the best attempt would be the node itself, but its parent is further down
      obtain rfl := Option.some.inj (hparent.symm.trans hca)
      exact absurd (index_lt_of_mem_ancestors hfirst ha) (Nat.lt_irrefl _)
    · exact ⟨c, hc, hmem⟩
  · by_cases hattempts : t.holdsAttempts p
    · rw [liveChildren_of_holdsAttempts hattempts, Option.mem_toList]
      obtain ⟨c, hc, hcp, rfl | hmem⟩ := hbest p (by rw [hup]; exact List.mem_cons_self) hattempts
      · exact hc
      · have hpc := hfirst hcp
        rcases List.mem_cons.mp hmem with rfl | hmem
        · exact absurd hpc (Nat.lt_irrefl _)
        · exact absurd (index_lt_of_mem_ancestors hfirst hmem) (Nat.lt_asymm hpc)
    · rw [liveChildren_of_not_holdsAttempts hattempts]
      exact h.mem_children_iff.mpr hparent

theorem IsPreorder.parent?_root : t.parent? root = none := by
  rcases hp : t.parent? root with _ | p
  · rfl
  · exact absurd (h.parentsFirst hp) (Nat.not_lt_zero _)

/-- **A node counts** if a way that counts leads to it. -/
theorem IsPreorder.liveWay_root_iff (hsize : 0 < t.size) : t.LiveWay root x ↔ t.IsLive x := by
  constructor
  · intro hx
    induction hx with
    | refl =>
      refine ⟨hsize, ?_⟩
      rw [ancestors_of_parent?_eq_none h.parent?_root]
      simp
    | tail _ hc ih => exact h.isLive_of_mem_liveChildren ih hc
  · intro hx
    induction hn : x.index using Nat.strong_induction_on generalizing x with
    | _ n ih =>
      by_cases hroot : x = root
      · rw [hroot]
        exact .refl
      · obtain ⟨p, hparent⟩ := h.exists_parent hroot hx.1
        obtain ⟨hp, hmem⟩ := h.isLive_parent hx hparent
        exact (ih p.index (hn ▸ h.parentsFirst hparent) hp rfl).tail hmem

/-! ### The list of all nodes that count -/

/-- The levels suffice, because numbers grow along a way. -/
theorem IsPreorder.mem_liveUpTo {n : Nat} (hx : t.LiveWay a x) (ha : a.index < t.size)
    (hn : t.size ≤ a.index + n) : x ∈ t.liveUpTo n a := by
  induction hx using Relation.ReflTransGen.head_induction_on generalizing n with
  | refl =>
    obtain ⟨n, rfl⟩ := Nat.exists_eq_succ_of_ne_zero (show n ≠ 0 by omega)
    rw [liveUpTo]
    exact List.mem_cons_self
  | @head a c hc _ ih =>
    obtain ⟨n, rfl⟩ := Nat.exists_eq_succ_of_ne_zero (show n ≠ 0 by omega)
    have hparent := h.parent?_of_mem_liveChildren hc
    have hlt := h.parentsFirst hparent
    rw [liveUpTo]
    refine List.mem_cons_of_mem _ (List.mem_flatMap.mpr ⟨c, hc, ih (lt_size_of_parent? hparent) ?_⟩)
    omega

/-- The nodes that count come in ascending order. -/
theorem IsPreorder.pairwise_liveUpTo (n : Nat) (a : NodeId) :
    (t.liveUpTo n a).Pairwise fun x y => x.index < y.index := by
  induction n generalizing a with
  | zero => exact .nil
  | succ n ih =>
    have hbelow : ∀ c x, x ∈ t.liveUpTo n c → x = c ∨ c ∈ t.ancestors x :=
      fun c x hx => h.eq_or_mem_ancestors_of_liveWay (liveWay_of_mem_liveUpTo hx)
    rw [liveUpTo, List.pairwise_cons]
    constructor
    · intro x hx
      obtain ⟨c, hc, hx⟩ := List.mem_flatMap.mp hx
      exact Nat.lt_of_lt_of_le (h.parentsFirst (h.parent?_of_mem_liveChildren hc)) (h.index_le_of_below (hbelow c x hx))
    · exact h.pairwise_flatMap (t.liveChildren_sublist a) (fun c _ => ih c) fun c _ => hbelow c

theorem IsPreorder.mem_live_iff : x ∈ t.live ↔ t.IsLive x := by
  unfold live
  split_ifs with hempty
  · have hsize := isEmpty_iff.mp hempty
    simp [IsLive, hsize]
  · have hsize : 0 < t.size := Nat.pos_of_ne_zero fun h0 => hempty (isEmpty_iff.mpr h0)
    rw [← h.liveWay_root_iff hsize]
    exact ⟨liveWay_of_mem_liveUpTo, fun hx => h.mem_liveUpTo hx hsize (Nat.le_add_left _ _)⟩

theorem IsPreorder.pairwise_live : t.live.Pairwise fun x y => x.index < y.index := by
  unfold live
  split_ifs
  · exact .nil
  · exact h.pairwise_liveUpTo _ _

/-- **The nodes that count** are listed once each and in ascending order. -/
theorem IsPreorder.live_eq_filter : t.live = t.ids.filter fun x => t.IsLive x := by
  have hirrefl : Std.Irrefl fun x y : NodeId => x.index < y.index := ⟨fun _ => Nat.lt_irrefl _⟩
  have hantisymm : Std.Antisymm fun x y : NodeId => x.index < y.index :=
    ⟨fun _ _ hxy hyx => absurd hyx (Nat.lt_asymm hxy)⟩
  refine h.pairwise_live.eq_of_mem_iff ((pairwise_ids t).filter _) fun x => ?_
  rw [h.mem_live_iff, List.mem_filter, mem_ids_iff, decide_eq_true_eq]
  exact ⟨fun hx => ⟨hx.1, hx⟩, fun hx => hx.2⟩

end Preorder

/-! ### A walk with a stack -/

/-- A walk takes one node after the other from a stack and puts the children that count in its place, the
first one on top; these are the nodes it meets until the stack is empty. -/
inductive Walks (t : MatchTree) : List NodeId → List NodeId → Prop where
  | done : Walks t [] []
  | visit {x : NodeId} {stack visited : List NodeId} : Walks t (t.liveChildren x ++ stack) visited →
    Walks t (x :: stack) (x :: visited)

/-- What stands on top of a stack, one node after the other. -/
theorem stack_flatMap {R : List NodeId → List NodeId → Prop} {f : NodeId → List NodeId} {stack out : List NodeId}
    (hrest : R stack out) : ∀ {top : List NodeId},
      (∀ c ∈ top, ∀ stack out, R stack out → R (c :: stack) (f c ++ out)) → R (top ++ stack) (top.flatMap f ++ out)
  | [], _ => hrest
  | c :: top, htop => by
    rw [List.forall_mem_cons] at htop
    rw [List.cons_append, List.flatMap_cons, List.append_assoc]
    exact htop.1 _ _ (stack_flatMap hrest htop.2)

/-- What is below the topmost node is met before the rest of the stack. -/
theorem IsPreorder.walks_liveUpTo (h : t.IsPreorder) {n : Nat} {a : NodeId} {stack visited : List NodeId}
    (ha : a.index < t.size) (hn : t.size ≤ a.index + n) (hrest : Walks t stack visited) :
    Walks t (a :: stack) (t.liveUpTo n a ++ visited) := by
  induction n generalizing a stack visited with
  | zero => omega
  | succ n ih =>
    rw [liveUpTo, List.cons_append]
    refine .visit (stack_flatMap hrest fun c hc stack visited hstack => ?_)
    have hparent := h.parent?_of_mem_liveChildren hc
    have hlt := h.parentsFirst hparent
    exact ih (lt_size_of_parent? hparent) (by omega) hstack

/-- **A walk from the root** meets the nodes that count. -/
theorem IsPreorder.walks_live (h : t.IsPreorder) (hsize : 0 < t.size) : Walks t [root] t.live := by
  have hempty : ¬ t.isEmpty := fun he => Nat.ne_of_gt hsize (isEmpty_iff.mp he)
  have hwalk := h.walks_liveUpTo hsize (Nat.le_add_left t.size root.index) .done
  rw [List.append_nil] at hwalk
  unfold live
  rw [if_neg hempty]
  exact hwalk

end MatchTree

end ShaderAssist

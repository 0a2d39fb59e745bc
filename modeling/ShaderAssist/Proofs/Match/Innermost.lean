import Mathlib.Data.Prod.Lex
import ShaderAssist.Proofs.Match.Geometry
import ShaderAssist.Proofs.Match.Live

/-!
# The node at a cursor

From the root a cursor goes down to children that contain it. Ranges may touch or overlap, so several children may
contain it; it goes to the first one of the best places among them (`MatchTree.IsNextPlace`). A place is better if it
starts before the cursor, and of two that agree in this, the one that reaches further is better; so places are
compared in the lexicographic order of these two (`isBetterPlace_iff`).

The cursor ends in a node with no child that contains it (`MatchTree.IsInnermost`).
-/

namespace ShaderAssist

namespace MatchTree

variable {t : MatchTree} {offset : Nat} {a b c p r x : NodeId}

/-- Whether the range of a node contains an offset, both ends included. -/
def containsAt (t : MatchTree) (offset : Nat) (id : NodeId) : Bool :=
  (t.node? id).any fun n => n.contains offset

/-- How good a node is as a place for a cursor: whether it starts before the cursor, and then where it ends. -/
def placeKey (t : MatchTree) (offset : Nat) (id : NodeId) : Bool ×ₗ Nat :=
  toLex (decide (t.start id < offset), t.stop id)

/-- The child to which a cursor goes from a node: of the children that contain it the first one that is best. -/
def IsNextPlace (t : MatchTree) (offset : Nat) (p c : NodeId) : Prop :=
  IsFirstMax (t.placeKey offset) ((t.children p).filter (t.containsAt offset)) c

/-- **The innermost node for an offset.** -/
structure IsInnermost (t : MatchTree) (offset : Nat) (r : NodeId) : Prop where
  /-- It is the root or below the root. -/
  root_mem : root ∈ r :: t.ancestors r
  /-- The nodes on the way from the root to it, without the root, contain the offset. -/
  contains : ∀ x ∈ r :: t.ancestors r, x ≠ root → t.containsAt offset x
  /-- Each of them is the one to which the cursor goes from its parent. -/
  chosen : ∀ x ∈ r :: t.ancestors r, ∀ p, t.parent? x = some p → t.IsNextPlace offset p x
  /-- None of its children contains the offset. -/
  last : ∀ c ∈ t.children r, ¬ t.containsAt offset c

/-! ### The next place -/

/-- **A place is better** if it is greater in the lexicographic order. -/
theorem isBetterPlace_iff {candidate best : MatchNode} (hc : t.node? c = some candidate)
    (hb : t.node? b = some best) (offset : Nat) :
    isBetterPlace offset candidate best ↔ t.placeKey offset b < t.placeKey offset c := by
  unfold isBetterPlace placeKey
  rw [Prod.Lex.toLex_lt_toLex, start_of_node? hc, start_of_node? hb, stop_of_node? hc, stop_of_node? hb]
  by_cases hcandidate : candidate.start < offset <;> by_cases hbest : best.start < offset <;>
    simp [hcandidate, hbest]

theorem exists_node?_of_containsAt (h : t.containsAt offset x) : ∃ n, t.node? x = some n ∧ n.contains offset := by
  unfold containsAt at h
  rw [Option.any_eq_true] at h
  exact h

theorem betterPlace_of_not_containsAt (h : ¬ t.containsAt offset x) (best : Option NodeId) :
    t.betterPlace offset best x = best := by
  unfold containsAt at h
  unfold betterPlace
  cases hn : t.node? x with
  | none => rfl
  | some n =>
    rw [hn, Option.any_some] at h
    simp [h]

/-- Children that do not contain the offset play no part. -/
theorem foldl_betterPlace (t : MatchTree) (offset : Nat) (ids : List NodeId) :
    ids.foldl (t.betterPlace offset) none = (ids.filter (t.containsAt offset)).foldl (t.betterPlace offset) none := by
  rw [List.foldl_filter]
  congr 1
  funext best x
  split_ifs with hx
  · rfl
  · exact betterPlace_of_not_containsAt hx best

theorem keepsFirstMax_betterPlace (t : MatchTree) (offset : Nat) (ids : List NodeId) :
    KeepsFirstMax (t.placeKey offset) (t.betterPlace offset) (ids.filter (t.containsAt offset)) := by
  intro x hx
  obtain ⟨n, hn, hcontains⟩ := exists_node?_of_containsAt (List.mem_filter.mp hx).2
  refine ⟨?_, fun y hy => ?_⟩
  · simp [betterPlace, hn, hcontains]
  · obtain ⟨k, hk, hcontains'⟩ := exists_node?_of_containsAt (List.mem_filter.mp hy).2
    have hbetter := isBetterPlace_iff hk hn offset
    simp only [betterPlace, hk, hcontains', Bool.not_true, Bool.false_eq_true, if_false, Option.bind_some, hn]
    simp only [hbetter]

/-- **A step of the cursor.** -/
theorem foldl_betterPlace_eq_some_iff :
    (t.children p).foldl (t.betterPlace offset) none = some c ↔ t.IsNextPlace offset p c := by
  rw [foldl_betterPlace]
  exact foldl_eq_some_iff_isFirstMax (t.keepsFirstMax_betterPlace offset (t.children p))

theorem foldl_betterPlace_eq_none_iff :
    (t.children p).foldl (t.betterPlace offset) none = none ↔ ∀ c ∈ t.children p, ¬ t.containsAt offset c := by
  rw [foldl_betterPlace, foldl_eq_none_iff (t.keepsFirstMax_betterPlace offset (t.children p)),
    List.filter_eq_nil_iff]

theorem IsNextPlace.mem_children (h : t.IsNextPlace offset p c) : c ∈ t.children p :=
  (List.mem_filter.mp h.mem).1

theorem IsNextPlace.containsAt (h : t.IsNextPlace offset p c) : t.containsAt offset c :=
  (List.mem_filter.mp h.mem).2

/-! ### The way of a cursor -/

/-- **The way down** from a node: step by step to the next place, as long as there is one. -/
theorem IsPreorder.innermostFrom (h : t.IsPreorder) (offset : Nat) : ∀ (n : Nat) (a : NodeId),
    t.size ≤ a.index + n → Relation.ReflTransGen (t.IsNextPlace offset) a (t.innermostFrom offset n a) ∧
      ∀ c ∈ t.children (t.innermostFrom offset n a), ¬ t.containsAt offset c
  | 0, a, hn => by
    refine ⟨.refl, fun c hc => ?_⟩
    -- there is no such node, so it has no children
    have := lt_size_of_mem_children hc
    rw [MatchTree.innermostFrom] at this
    omega
  | n + 1, a, hn => by
    rw [MatchTree.innermostFrom]
    split
    · rename_i c hc
      have hnext := foldl_betterPlace_eq_some_iff.mp hc
      have hlt := h.parentsFirst (h.mem_children_iff.mp hnext.mem_children)
      obtain ⟨hway, hlast⟩ := IsPreorder.innermostFrom h offset n c (by omega)
      exact ⟨.head hnext hway, hlast⟩
    · rename_i hnone
      exact ⟨.refl, foldl_betterPlace_eq_none_iff.mp hnone⟩

/-- The nodes on the way are those above its end. -/
theorem IsPreorder.eq_root_or_isNextPlace (h : t.IsPreorder)
    (hway : Relation.ReflTransGen (t.IsNextPlace offset) root r) :
    root ∈ r :: t.ancestors r ∧ ∀ x ∈ r :: t.ancestors r, x = root ∨
      ∃ p, t.parent? x = some p ∧ t.IsNextPlace offset p x := by
  induction hway with
  | refl =>
    rw [ancestors_of_parent?_eq_none h.parent?_root]
    simp
  | @tail p c _ hnext ih =>
    have hparent := h.mem_children_iff.mp hnext.mem_children
    rw [ancestors_of_parent? h.parentsFirst hparent]
    refine ⟨List.mem_cons_of_mem c ih.1, fun x hx => ?_⟩
    rcases List.mem_cons.mp hx with rfl | hx
    · exact Or.inr ⟨p, hparent, hnext⟩
    · exact ih.2 x hx

theorem innermost?_eq_none_iff : t.innermost? offset = none ↔ t.size = 0 := by
  rw [← isEmpty_iff]
  by_cases hempty : t.isEmpty
  · exact iff_of_true (if_pos hempty) hempty
  · unfold innermost?
    rw [if_neg hempty]
    exact iff_of_false (Option.some_ne_none _) hempty

theorem IsPreorder.isInnermost_innermostFrom (h : t.IsPreorder) (offset : Nat) :
    t.IsInnermost offset (t.innermostFrom offset t.size root) := by
  obtain ⟨hway, hlast⟩ := h.innermostFrom offset t.size root (Nat.le_add_left _ _)
  obtain ⟨hroot, hnodes⟩ := h.eq_root_or_isNextPlace hway
  refine ⟨hroot, fun x hx hne => ?_, fun x hx p hp => ?_, hlast⟩
  · obtain rfl | ⟨p, -, hnext⟩ := hnodes x hx
    · exact absurd rfl hne
    · exact hnext.containsAt
  · obtain rfl | ⟨q, hq, hnext⟩ := hnodes x hx
    · exact absurd (h.parent?_root.symm.trans hp) (Option.some_ne_none p).symm
    · obtain rfl := Option.some.inj (hq.symm.trans hp)
      exact hnext

theorem containsAt_root {E : Engine} {g : Grammar} {m : Matcher} (hg : g.compile E = .ok m.grammar)
    (hlimit : 1 ≤ m.depthLimit) (hoffset : offset ≤ m.document.size) : m.tree.containsAt offset root := by
  obtain ⟨-, -, -, -, -, hstart, hstop⟩ := Matcher.exists_linesRun_matchDocument hg hlimit
  obtain ⟨n, hn, hinfo, -⟩ := exists_root m.matchDocument.value
  have hcontains : m.matchDocument.value.info.contains offset := by
    unfold MatchInfo.contains
    rw [show m.matchDocument.value.info.start = 0 from hstart,
      show m.matchDocument.value.info.stop = m.document.size from hstop]
    simpa using hoffset
  unfold containsAt
  rw [show m.tree.node? root = some n from hn, Option.any_some, hinfo]
  exact hcontains

theorem IsInnermost.lt_size (h : t.IsInnermost offset r) (hsize : 0 < t.size) : r.index < t.size := by
  by_cases hroot : r = root
  · rw [hroot]
    exact hsize
  · obtain ⟨n, hn, -⟩ := exists_node?_of_containsAt (h.contains r List.mem_cons_self hroot)
    exact (Array.getElem?_eq_some_iff.mp hn).1

/-- **The node at a cursor.** There is none exactly in the tree without nodes. In every tree with a root it is a node
of the tree and the end of the cursor's way down. In the tree of a document all nodes on the way contain the cursor,
the root as well. -/
theorem innermost?_isInnermost {t : MatchTree} (h : t.IsTree) (offset : Nat) :
    (t.innermost? offset = none ↔ t.size = 0) ∧
      (0 < t.size → ∃ r, t.innermost? offset = some r ∧ r.index < t.size ∧ t.IsInnermost offset r ∧
        ∀ (E : Engine) (g : Grammar) (c : CompiledGrammar) (d : Document) (limit : Nat),
          g.compile E = .ok c → t = Matcher.tree ⟨c, d, limit⟩ → 1 ≤ limit → offset ≤ d.size →
            ∀ x ∈ r :: t.ancestors r, t.containsAt offset x) := by
  refine ⟨innermost?_eq_none_iff, fun hsize => ?_⟩
  have hinner := h.isPreorder.isInnermost_innermostFrom offset
  have hnonempty : ¬ t.isEmpty := fun hempty => hsize.ne' (isEmpty_iff.mp hempty)
  refine ⟨_, if_neg hnonempty, hinner.lt_size hsize, hinner, ?_⟩
  intro E g c d limit hg ht hlimit hoffset x hx
  by_cases hroot : x = root
  · rw [hroot, ht]
    exact containsAt_root hg hlimit hoffset
  · exact hinner.contains x hx hroot

/-- Two blocks that touch. -/
def touchingBlocks : Document :=
  .ofString "\x7b\x7d\x7b\x7d"

theorem innermost?_isInnermost_touchingBlocks : ∃ c, blockGrammar.compile .standard = .ok c ∧
    -- the cursor is in both blocks and goes to the first one
    (Matcher.tree ⟨c, touchingBlocks, 512⟩).children root = [⟨1⟩, ⟨5⟩] ∧
    (Matcher.tree ⟨c, touchingBlocks, 512⟩).containsAt 2 ⟨5⟩ ∧
    (Matcher.tree ⟨c, touchingBlocks, 512⟩).innermost? 2 = some ⟨4⟩ ∧
    (Matcher.tree ⟨c, touchingBlocks, 512⟩).ancestors ⟨4⟩ = [⟨2⟩, ⟨1⟩, root] ∧
    (Matcher.tree ⟨c, touchingBlocks, 512⟩).IsInnermost 2 ⟨4⟩ ∧
    (∀ x ∈ [⟨4⟩, ⟨2⟩, ⟨1⟩, root], (Matcher.tree ⟨c, touchingBlocks, 512⟩).containsAt 2 x) ∧
    empty.IsTree ∧ empty.innermost? 2 = none := by
  obtain ⟨c, hc⟩ := exists_compile_blockGrammar
  have heval : ((blockGrammar.compile .standard).toOption.map fun c =>
      ((Matcher.tree ⟨c, touchingBlocks, 512⟩).children root,
        (Matcher.tree ⟨c, touchingBlocks, 512⟩).containsAt 2 ⟨5⟩,
        (Matcher.tree ⟨c, touchingBlocks, 512⟩).innermost? 2,
        (Matcher.tree ⟨c, touchingBlocks, 512⟩).ancestors ⟨4⟩)) =
      some ([⟨1⟩, ⟨5⟩], true, some ⟨4⟩, [⟨2⟩, ⟨1⟩, root]) := by
    decide +kernel
  rw [hc] at heval
  simp only [Except.toOption, Option.map_some, Option.some.injEq, Prod.mk.injEq] at heval
  obtain ⟨hchildren, hsecond, hinnermost, habove⟩ := heval
  have htree : (Matcher.tree ⟨c, touchingBlocks, 512⟩).IsTree := .ofMatch _
  have hsize : 0 < (Matcher.tree ⟨c, touchingBlocks, 512⟩).size := by
    exact Nat.pos_of_ne_zero fun hzero =>
      Option.some_ne_none _ (hinnermost.symm.trans (innermost?_eq_none_iff.mpr hzero))
  obtain ⟨r, hr, -, hinner, hdocument⟩ := (innermost?_isInnermost htree 2).2 hsize
  obtain rfl := Option.some.inj (hinnermost.symm.trans hr)
  have hpath := hdocument .standard blockGrammar c touchingBlocks 512 hc rfl (by decide) (by decide)
  rw [habove] at hpath
  exact ⟨c, hc, hchildren, hsecond, hinnermost, habove, hinner, hpath, .empty,
    (innermost?_isInnermost .empty 2).1.mpr rfl⟩

end MatchTree

end ShaderAssist

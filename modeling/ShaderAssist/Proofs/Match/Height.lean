import ShaderAssist.Proofs.Match.Geometry
import ShaderAssist.Proofs.Match.Preorder

/-!
# The height of match trees

The limit of the depth bounds the height of a match. An attempt inside another one stands at most two levels
below it: the node of the outer attempt is above it, and the node of a skipped line may be in between, which
no attempt accounts for (`Outcome.height_le`). Named items take depth and add no node, and an attempt that is
cut off is a node one level below the limit. So a match at a depth is at most twice as high as the depth, and
one more (`height_matchAt_le`).

A tree is as high as the match that it comes from, on every way down from its root, and flattening a match has
as many calls inside each other as the match is high (`numberWithin_eq`).
-/

namespace ShaderAssist

/-! ### The height of a match -/

mutual

/-- Number of nodes on the longest way down from a match. -/
def Match.height : Match → Nat
  | .node _ children => heightAll children + 1

/-- Number of nodes on the longest way down from one of some matches. -/
def heightAll : List Match → Nat
  | [] => 0
  | m :: ms => max m.height (heightAll ms)

end

variable {n : Nat}

theorem heightAll_le_iff : ∀ {ms : List Match}, heightAll ms ≤ n ↔ ∀ m ∈ ms, m.height ≤ n
  | [] => by simp [heightAll]
  | m :: ms => by rw [heightAll, Nat.max_le, heightAll_le_iff, List.forall_mem_cons]

theorem Match.height_le_succ_iff {r : Match} : r.height ≤ n + 1 ↔ ∀ c ∈ r.children, c.height ≤ n := by
  cases r
  rw [Match.height, Nat.add_le_add_iff_right, heightAll_le_iff]
  rfl

theorem Match.height_lt_of_mem_children {r c : Match} (hc : c ∈ r.children) : c.height < r.height := by
  cases r
  rw [Match.height]
  exact Nat.lt_succ_of_le (heightAll_le_iff.mp (Nat.le_refl _) c hc)

mutual

/-- What is part of a match is not higher. -/
theorem Match.height_le_of_mem_nodes : ∀ {r s : Match}, s ∈ r.nodes → s.height ≤ r.height
  | .node info children, s, hs => by
    rw [Match.nodes] at hs
    rcases List.mem_cons.mp hs with rfl | hs
    · exact Nat.le_refl _
    · rw [Match.height]
      exact Nat.le_succ_of_le (height_le_of_mem_nodesAll hs)

theorem height_le_of_mem_nodesAll : ∀ {ms : List Match} {s : Match}, s ∈ nodesAll ms →
    s.height ≤ heightAll ms
  | [], s, hs => by
    rw [nodesAll] at hs
    cases hs
  | m :: ms, s, hs => by
    rw [nodesAll] at hs
    rw [heightAll]
    rcases List.mem_append.mp hs with hs | hs
    · exact Nat.le_trans (Match.height_le_of_mem_nodes hs) (Nat.le_max_left _ _)
    · exact Nat.le_trans (height_le_of_mem_nodesAll hs) (Nat.le_max_right _ _)

end

theorem Match.height_leaf (id : ItemId) (kind : MatchKind) (a b : Nat) : (leaf id kind a b).height = 1 := by
  rw [leaf, height, heightAll]

/-! ### The depth of attempts -/

namespace Matcher

variable {m : Matcher} {attempt : Attempt} {id : ItemId} {o : Nat} {item : Item} {r : Match}

/-- A skipped line is one level higher than the attempts on it. -/
theorem Piece.height_le (ha : m.Sound attempt)
    (hattempt : ∀ id o, m.document.IsBoundary o → (attempt id o).value.height ≤ n)
    (h : Piece m attempt r) : r.height ≤ n + 1 := by
  cases h with
  | tried id ho => exact Nat.le_succ_of_le (hattempt id _ ho)
  | line ho _ hline =>
    rw [(ha.skippedLine ho hline).line_eq, Match.height_le_succ_iff, Match.children_withRange,
      Match.children_ofChildren]
    intro c hc
    obtain ⟨a, -, rfl⟩ := List.mem_map.mp hc
    exact hattempt a _ ho

/-- **An item is at most two levels higher** than the attempts inside it. -/
theorem Outcome.height_le (ha : m.Sound attempt) (ho : m.document.IsBoundary o)
    (hattempt : ∀ id o, m.document.IsBoundary o → (attempt id o).value.height ≤ n)
    (h : Outcome m attempt id o item r) : r.height ≤ n + 2 := by
  rw [Match.height_le_succ_iff]
  intro c hc
  obtain ⟨p, hp, hcp⟩ := h.exists_piece ha ho hc (Match.mem_nodes.mpr (Or.inl rfl))
  exact Nat.le_trans (Match.height_le_of_mem_nodes hcp) (hp.height_le ha hattempt)

/-- **The height of an attempt** is bounded by the depth that is left for it. -/
theorem height_matchAt_le (m : Matcher) : ∀ (depth : Nat) (id : ItemId) (o : Nat),
    (m.matchAt depth id o).value.height ≤ 2 * depth + 1
  | depth, id, o => by
    by_cases ho : m.document.IsBoundary o
    · rcases matchAt_cases ho depth id with hleaf | ⟨n, item, rfl, -, hout⟩
      · rw [hleaf, Match.height_leaf]
        exact Nat.le_add_left _ _
      · exact hout.height_le (sound_matchAt m n) ho fun id o _ => height_matchAt_le m n id o
    · rw [matchAt_of_not_isBoundary ho, Match.height_leaf]
      exact Nat.le_add_left _ _

end Matcher

/-! ### Ways down in a tree -/

/-- The nodes of a way down in a tree: each one is a child of the one before it. -/
def MatchTree.IsWayDown (t : MatchTree) (way : List NodeId) : Prop :=
  way.IsChain fun p c => c ∈ t.children p

/-- A child of a node is stored for one of the matches below it. -/
theorem StoredFrom.exists_storedAt {t : MatchTree} {k : NodeContext} {c : NodeId} :
    ∀ {ms : List Match} {i : Nat} {ids : List NodeId}, StoredFrom t k i ids ms → c ∈ ids →
      ∃ m ∈ ms, m.StoredAt t k c.index
  | [], i, ids, h, hc => by
    rw [StoredFrom] at h
    rw [h] at hc
    cases hc
  | m :: ms, i, ids, h, hc => by
    rw [StoredFrom] at h
    obtain ⟨rest, rfl, hfirst, hrest⟩ := h
    rcases List.mem_cons.mp hc with rfl | hc
    · exact ⟨m, List.mem_cons_self, hfirst⟩
    · obtain ⟨m', hm', hstored⟩ := hrest.exists_storedAt hc
      exact ⟨m', List.mem_cons_of_mem m hm', hstored⟩

/-- **A way down** has at most as many nodes as the match that it starts at is high. -/
theorem Match.StoredAt.length_le_height {t : MatchTree} {way : List NodeId} {k : NodeContext} {m : Match}
    {p : NodeId} (h : m.StoredAt t k p.index) (hway : t.IsWayDown (p :: way)) :
    (p :: way).length ≤ m.height := by
  induction way generalizing k m p with
  | nil =>
    cases m
    rw [Match.height]
    exact Nat.le_add_left _ _
  | cons c way ih =>
    obtain ⟨hc, hway⟩ := List.isChain_cons_cons.mp hway
    obtain ⟨r, hr, hstored⟩ := h.children.exists_storedAt hc
    exact Nat.succ_le_of_lt (Nat.lt_of_le_of_lt (ih hstored hway) (Match.height_lt_of_mem_children hr))

/-! ### Calls inside each other -/

mutual

/-- Numbers the nodes of a match with at most so many calls inside each other; none if these do not
suffice. -/
def Match.numberWithin : Nat → NodeContext → Nat → Match → Option (List MatchNode × Nat)
  | 0, _, _, _ => none
  | calls + 1, k, next, .node info children => do
    let (below, ids, after) ← numberAllWithin calls (k.below ⟨next⟩ info) (next + 1) children
    some (⟨info, k.parent, ids, k.pattern, k.scope⟩ :: below, after)

/-- Numbers the nodes of some matches with at most so many calls inside each other for each of them. -/
def numberAllWithin : Nat → NodeContext → Nat → List Match → Option (List MatchNode × List NodeId × Nat)
  | _, _, next, [] => some ([], [], next)
  | calls, k, next, m :: ms => do
    let (first, after) ← m.numberWithin calls k next
    let (rest, ids, last) ← numberAllWithin calls k after ms
    some (first ++ rest, ⟨next⟩ :: ids, last)

end

mutual

/-- **Flattening a match** takes as many calls inside each other as the match is high. -/
theorem numberWithin_eq : ∀ (m : Match) (calls : Nat) (k : NodeContext) (i : Nat),
    m.numberWithin calls k i = if m.height ≤ calls then some (m.number k i) else none
  | .node info children, 0, k, i => by
    rw [Match.numberWithin, Match.height, if_neg (Nat.not_succ_le_zero _)]
  | .node info children, calls + 1, k, i => by
    rw [Match.numberWithin, numberAllWithin_eq children]
    simp only [Match.height, Nat.add_le_add_iff_right]
    by_cases h : heightAll children ≤ calls
    · rw [if_pos h, if_pos h, Match.number]
      rfl
    · rw [if_neg h, if_neg h]
      rfl

theorem numberAllWithin_eq : ∀ (ms : List Match) (calls : Nat) (k : NodeContext) (i : Nat),
    numberAllWithin calls k i ms = if heightAll ms ≤ calls then some (numberAll k i ms) else none
  | [], calls, k, i => by
    rw [numberAllWithin, heightAll, if_pos (Nat.zero_le _), numberAll]
  | m :: ms, calls, k, i => by
    rw [numberAllWithin, numberWithin_eq m]
    simp only [heightAll, Nat.max_le]
    by_cases h : m.height ≤ calls
    · rw [if_pos h, Option.bind_eq_bind, Option.bind_some, numberAllWithin_eq ms]
      by_cases h' : heightAll ms ≤ calls
      · rw [if_pos h', if_pos ⟨h, h'⟩, numberAll]
        rfl
      · rw [if_neg h', if_neg fun hboth => h' hboth.2]
        rfl
    · rw [if_neg h, if_neg fun hboth => h hboth.1]
      rfl

end

/-- The tree of a match, flattened with at most so many calls inside each other. -/
def MatchTree.ofMatchWithin? (calls : Nat) (m : Match) : Option MatchTree :=
  (m.numberWithin calls {} 0).map fun r => ⟨r.1.toArray⟩

theorem MatchTree.ofMatchWithin?_eq_some {calls : Nat} {m : Match} (h : m.height ≤ calls) :
    ofMatchWithin? calls m = some (ofMatch m) := by
  rw [ofMatchWithin?, numberWithin_eq, if_pos h]
  rfl

/-- **The limit of the depth bounds the height of the tree.** Every way down from its root has at most one
node more than twice the limit, and flattening the match of the document into the tree needs no more calls
inside each other than that. -/
theorem Matcher.tree_height_le (m : Matcher) :
    (∀ way, m.tree.IsWayDown (MatchTree.root :: way) →
      (MatchTree.root :: way).length ≤ 2 * m.depthLimit + 1) ∧
      MatchTree.ofMatchWithin? (2 * m.depthLimit + 1) m.matchDocument.value = some m.tree := by
  have hheight : m.matchDocument.value.height ≤ 2 * m.depthLimit + 1 := m.height_matchAt_le _ _ _
  refine ⟨fun way hway => ?_, MatchTree.ofMatchWithin?_eq_some hheight⟩
  have hroot : m.matchDocument.value.StoredAt m.tree {} MatchTree.root.index := MatchTree.storedAt_ofMatch _
  exact Nat.le_trans (hroot.length_le_height hway) hheight

end ShaderAssist

import ShaderAssist.Proofs.Match.Preorder

/-!
# Trees as encodings of matches

The tree of a match has the nodes of the match in pre-order, and their links say where each of them stands
(`MatchTree.Flattens`). What a node knows about the pattern and the scope above it is what one finds on the way up
(`NodeContext.Knows`). Nothing is lost: reading the tree from its root on gives the match again
(`MatchTree.toMatch?`), so different matches have different trees.
-/

namespace ShaderAssist

namespace MatchTree

/-! ### Reading a match off a tree -/

/-- The match that stands at a node, if it is less than `n` levels high. -/
def partUpTo (t : MatchTree) : Nat → NodeId → Option Match
  | 0, _ => none
  | n + 1, id => do
    let node ← t.node? id
    let children ← node.children.mapM (partUpTo t n)
    some (.node node.toMatchInfo children)

/-- The match that a tree encodes. -/
def toMatch? (t : MatchTree) : Option Match :=
  t.partUpTo t.size root

end MatchTree

mutual

/-- A match that is stored in a tree is read off from its number on. -/
theorem Match.StoredAt.partUpTo {t : MatchTree} : ∀ {m : Match} {k : NodeContext} {i n : Nat},
    m.StoredAt t k i → m.nodes.length ≤ n → t.partUpTo n ⟨i⟩ = some m
  | .node info children, k, i, 0, _, hn => by
    rw [Match.nodes, List.length_cons] at hn
    omega
  | .node info children, k, i, n + 1, h, hn => by
    rw [Match.StoredAt] at h
    obtain ⟨ids, hnode, hbelow⟩ := h
    rw [Match.nodes, List.length_cons] at hn
    have hchildren := hbelow.mapM_partUpTo (n := n) (by omega)
    rw [MatchTree.partUpTo, hnode, Option.bind_eq_bind, Option.bind_some]
    dsimp only
    rw [hchildren]
    rfl

theorem StoredFrom.mapM_partUpTo {t : MatchTree} : ∀ {ms : List Match} {k : NodeContext} {i n : Nat}
    {ids : List NodeId}, StoredFrom t k i ids ms → (nodesAll ms).length ≤ n →
      ids.mapM (t.partUpTo n) = some ms
  | [], k, i, n, ids, h, _ => by
    rw [StoredFrom] at h
    rw [h]
    rfl
  | m :: ms, k, i, n, ids, h, hn => by
    rw [StoredFrom] at h
    obtain ⟨rest, rfl, hfirst, hrest⟩ := h
    rw [nodesAll, List.length_append] at hn
    rw [List.mapM_cons, hfirst.partUpTo (by omega), hrest.mapM_partUpTo (by omega)]
    rfl

end

namespace MatchTree

/-- **A match is read off its tree.** -/
theorem toMatch?_ofMatch (m : Match) : (ofMatch m).toMatch? = some m := by
  unfold toMatch?
  exact (storedAt_ofMatch m).partUpTo (Nat.le_of_eq (size_ofMatch m).symm)

/-! ### What a node knows about those above it -/

/-- Whether a node stands for a pattern. -/
def isPatternAt (t : MatchTree) (id : NodeId) : Bool :=
  (t.node? id).any fun n => n.isPattern

/-- Whether a node stands for a scope. -/
def isScopeAt (t : MatchTree) (id : NodeId) : Bool :=
  (t.node? id).any fun n => n.isScope

end MatchTree

/-- A node knows the first of the nodes above it, the first pattern and the first scope among them. -/
structure NodeContext.Knows (t : MatchTree) (k : NodeContext) (above : List NodeId) : Prop where
  parent : k.parent = above.head?
  pattern : k.pattern = above.find? t.isPatternAt
  scope : k.scope = above.find? t.isScopeAt

theorem NodeContext.Knows.below {t : MatchTree} {k : NodeContext} {above : List NodeId} {id : NodeId}
    {n : MatchNode} (h : k.Knows t above) (hid : t.node? id = some n) :
    (k.below id n.toMatchInfo).Knows t (id :: above) where
  parent := rfl
  pattern := by
    have hself : t.isPatternAt id = n.isPattern := by
      rw [MatchTree.isPatternAt, hid, Option.any_some]
    rw [NodeContext.below, List.find?_cons, hself, h.pattern]
    cases n.isPattern <;> rfl
  scope := by
    have hself : t.isScopeAt id = n.isScope := by
      rw [MatchTree.isScopeAt, hid, Option.any_some]
    rw [NodeContext.below, List.find?_cons, hself, h.scope]
    cases n.isScope <;> rfl

mutual

/-- The parts of a match are stored in the order of its nodes, each with what it has to know. -/
theorem Match.StoredAt.getElem?_nodes {t : MatchTree} (ht : t.ParentsFirst) : ∀ {m r : Match}
    {k : NodeContext} {i j : Nat}, m.StoredAt t k i → k.Knows t (t.ancestors ⟨i⟩) → m.nodes[j]? = some r →
      ∃ l : NodeContext, r.StoredAt t l (i + j) ∧ l.Knows t (t.ancestors ⟨i + j⟩)
  | .node info children, r, k, i, 0, h, hk, hr => by
    rw [Match.nodes, List.getElem?_cons_zero] at hr
    obtain rfl := Option.some.inj hr
    exact ⟨k, h, hk⟩
  | .node info children, r, k, i, j + 1, h, hk, hr => by
    rw [Match.StoredAt] at h
    obtain ⟨ids, hnode, hbelow⟩ := h
    rw [Match.nodes, List.getElem?_cons_succ] at hr
    obtain ⟨l, hl⟩ := hbelow.getElem?_nodesAll ht rfl (hk.below hnode) hr
    rw [show i + (j + 1) = i + 1 + j by omega]
    exact ⟨l, hl⟩

theorem StoredFrom.getElem?_nodesAll {t : MatchTree} (ht : t.ParentsFirst) : ∀ {ms : List Match} {r : Match}
    {k : NodeContext} {p : NodeId} {i j : Nat} {ids : List NodeId}, StoredFrom t k i ids ms →
      k.parent = some p → k.Knows t (p :: t.ancestors p) → (nodesAll ms)[j]? = some r →
        ∃ l : NodeContext, r.StoredAt t l (i + j) ∧ l.Knows t (t.ancestors ⟨i + j⟩)
  | [], r, k, p, i, j, ids, _, _, _, hr => by
    rw [nodesAll, List.getElem?_nil] at hr
    cases hr
  | m :: ms, r, k, p, i, j, ids, h, hp, hk, hr => by
    rw [StoredFrom] at h
    obtain ⟨rest, rfl, hfirst, hrest⟩ := h
    rw [nodesAll] at hr
    rcases Nat.lt_or_ge j m.nodes.length with hlt | hge
    · rw [List.getElem?_append_left hlt] at hr
      have habove := MatchTree.ancestors_of_parent? ht (hfirst.parent?.trans hp)
      exact hfirst.getElem?_nodes ht (habove ▸ hk) hr
    · rw [List.getElem?_append_right hge] at hr
      obtain ⟨l, hl⟩ := hrest.getElem?_nodesAll ht hp hk hr
      rw [show i + j = i + m.nodes.length + (j - m.nodes.length) by omega]
      exact ⟨l, hl⟩

end

/-! ### What is below a node -/

/-- The children of a node are stored inside its range. -/
theorem Match.StoredAt.lt_of_mem_children {t : MatchTree} {k : NodeContext} {m : Match} {i : Nat} {x : NodeId}
    (h : m.StoredAt t k i) (hx : x ∈ t.children ⟨i⟩) : x.index < i + m.nodes.length := by
  have := (h.children.mem_ids.2 x hx).2.1
  rw [Match.nodes_eq, List.length_cons]
  omega

/-- **What is below a node** is what follows it in its range. -/
theorem Match.StoredAt.mem_ancestors_iff {t : MatchTree} (ht : t.IsPreorder) {k : NodeContext} {m : Match}
    {i : Nat} {x : NodeId} (h : m.StoredAt t k i) :
    ⟨i⟩ ∈ t.ancestors x ↔ i < x.index ∧ x.index < i + m.nodes.length := by
  have hfirst := ht.parentsFirst
  constructor
  · intro hx
    refine ⟨MatchTree.index_lt_of_mem_ancestors hfirst hx, ?_⟩
    induction hn : x.index using Nat.strong_induction_on generalizing x with
    | _ n ih =>
      obtain ⟨p, hp, hip⟩ := (MatchTree.mem_ancestors_iff hfirst).mp hx
      have hchild := ht.mem_children_iff.mpr hp
      rcases hip with rfl | hip
      · exact hn ▸ h.lt_of_mem_children hchild
      · -- the parent is in the range, and what is stored for it ends there
        have hpx := hfirst hp
        have hlt := MatchTree.index_lt_of_mem_ancestors hfirst hip
        obtain ⟨r, l, hr, hlen, -⟩ := h.exists_part (Nat.le_of_lt hlt) (ih p.index (hn ▸ hpx) hip rfl)
        have := hr.lt_of_mem_children hchild
        omega
  · rintro ⟨hix, hx⟩
    exact h.mem_ancestors hfirst hix hx

namespace MatchTree

/-! ### Flattened matches -/

/-- A node of a tree stands for the part `r` of a match, which is the one with the number `i` among all parts. -/
structure StandsFor (t : MatchTree) (all : List Match) (i : Nat) (n : MatchNode) (r : Match) : Prop where
  /-- It says what the part says. -/
  info : n.toMatchInfo = r.info
  /-- Its children are those of the part in order, and the nodes that have it as their parent. -/
  children : Refers all n.children r.children
  mem_children_iff : ∀ x, x ∈ n.children ↔ t.parent? x = some ⟨i⟩
  sorted : n.children.Pairwise fun a b => a.index < b.index
  /-- What is below it has the numbers after its own, as many as there are nodes below the part. -/
  below : ∀ x, ⟨i⟩ ∈ t.ancestors x ↔ i + 1 ≤ x.index ∧ x.index ≤ i + r.nodes.length - 1
  /-- The pattern and the scope that it knows are the nearest ones above it. -/
  pattern : n.pattern = (t.ancestors ⟨i⟩).find? t.isPatternAt
  scope : n.scope = (t.ancestors ⟨i⟩).find? t.isScopeAt

/-- A tree has one node for each part of a match, in pre-order, and the first one has no parent. -/
structure Flattens (t : MatchTree) (m : Match) : Prop where
  size : t.size = m.nodes.length
  root : t.parent? root = none
  node : ∀ i r, m.nodes[i]? = some r → ∃ n, t.node? ⟨i⟩ = some n ∧ t.StandsFor m.nodes i n r

/-- The node with a number stands for the part with that number. -/
theorem standsFor_ofMatch {m r : Match} {i : Nat} (hr : m.nodes[i]? = some r) :
    ∃ n, (ofMatch m).node? ⟨i⟩ = some n ∧ (ofMatch m).StandsFor m.nodes i n r := by
  have ht := isPreorder_ofMatch m
  have hroot : ({} : NodeContext).Knows (ofMatch m) ((ofMatch m).ancestors root) := by
    rw [ancestors_of_parent?_eq_none (parent?_root_ofMatch m)]
    exact ⟨rfl, rfl, rfl⟩
  obtain ⟨l, hstored, hl⟩ := (storedAt_ofMatch m).getElem?_nodes ht.parentsFirst hroot hr
  rw [Nat.zero_add] at hstored hl
  obtain ⟨ids, hnode, -⟩ := hstored.node?
  have hids : (ofMatch m).children ⟨i⟩ = ids := by
    unfold children
    rw [hnode]
    rfl
  have hrefers : Refers m.nodes ids r.children := by
    have hnum := numbered_ofMatch m
    have hi : (ofMatch m).nodes.toList[i]? = some ⟨r.info, l.parent, ids, l.pattern, l.scope⟩ :=
      Array.getElem?_toList.trans hnode
    obtain ⟨hlt, hget⟩ := List.getElem?_eq_some_iff.mp hi
    obtain ⟨hlt', hget'⟩ := List.getElem?_eq_some_iff.mp hr
    have hboth := (hnum.get hlt hlt').2
    rw [List.get_eq_getElem, List.get_eq_getElem] at hboth
    dsimp only at hboth
    rw [hget, hget'] at hboth
    exact hboth
  refine ⟨_, hnode, rfl, hrefers, fun x => ?_, ?_, fun x => ?_, hl.pattern, hl.scope⟩
  · rw [← ht.mem_children_iff, hids]
  · rw [← hids]
    exact ht.sorted ⟨i⟩
  · rw [hstored.mem_ancestors_iff ht, Match.nodes_eq, List.length_cons]
    omega

/-- **The tree of a match** has its nodes in pre-order with their links, and the match can be read off it. So
different matches have different trees. -/
theorem flattens_ofMatch (m : Match) : (ofMatch m).Flattens m ∧ (ofMatch m).toMatch? = some m ∧
    ∀ m', ofMatch m' = ofMatch m → m' = m := by
  refine ⟨⟨size_ofMatch m, parent?_root_ofMatch m, fun i r hr => standsFor_ofMatch hr⟩, toMatch?_ofMatch m, ?_⟩
  intro m' hm'
  have hread := toMatch?_ofMatch m'
  rw [hm', toMatch?_ofMatch] at hread
  exact (Option.some.inj hread).symm

end MatchTree

end ShaderAssist

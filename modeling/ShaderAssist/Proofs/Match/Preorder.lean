import ShaderAssist.Proofs.Match.Numbering

/-!
# Nodes in pre-order

The nodes of a match tree are numbered in pre-order: a parent comes before its children, and everything below
a node comes before whatever else follows the node. `MatchTree.IsPreorder` says this of the links in a tree,
so that proofs about what is above and below a node need nothing else. It holds of the tree of every match
(`isPreorder_ofMatch`), because such a tree holds each part of the match from one number on
(`Match.StoredAt`).
-/

namespace ShaderAssist

/-! ### Where the parts of a match are stored -/

mutual

/-- The nodes of a match stand in a tree from the number `i` on. -/
def Match.StoredAt (t : MatchTree) (k : NodeContext) (i : Nat) : Match → Prop
  | .node info children => ∃ ids, t.node? ⟨i⟩ = some ⟨info, k.parent, ids, k.pattern, k.scope⟩ ∧
      StoredFrom t (k.below ⟨i⟩ info) (i + 1) ids children

/-- The nodes of some matches stand in a tree from the number `i` on, each match under its own number. -/
def StoredFrom (t : MatchTree) (k : NodeContext) (i : Nat) (ids : List NodeId) : List Match → Prop
  | [] => ids = []
  | m :: ms => ∃ rest, ids = ⟨i⟩ :: rest ∧ m.StoredAt t k i ∧
      StoredFrom t k (i + m.nodes.length) rest ms

end

mutual

theorem length_number : ∀ (m : Match) (k : NodeContext) (i : Nat),
    (m.number k i).1.length = m.nodes.length ∧ (m.number k i).2 = i + m.nodes.length
  | .node info children, k, i => by
    obtain ⟨h1, h2⟩ := length_numberAll children (k.below ⟨i⟩ info) (i + 1)
    rw [Match.number, Match.nodes]
    dsimp only
    rw [List.length_cons, List.length_cons, h1, h2]
    exact ⟨rfl, by omega⟩

theorem length_numberAll : ∀ (ms : List Match) (k : NodeContext) (i : Nat),
    (numberAll k i ms).1.length = (nodesAll ms).length ∧
      (numberAll k i ms).2.2 = i + (nodesAll ms).length
  | [], k, i => by
    rw [numberAll, nodesAll]
    exact ⟨rfl, rfl⟩
  | m :: ms, k, i => by
    obtain ⟨h1, h2⟩ := length_number m k i
    obtain ⟨h3, h4⟩ := length_numberAll ms k (m.number k i).2
    rw [numberAll, nodesAll]
    dsimp only
    rw [List.length_append, List.length_append, h1, h3, h4, h2]
    exact ⟨rfl, by omega⟩

end

mutual

theorem storedAt_number {t : MatchTree} : ∀ (m : Match) (k : NodeContext) (front back : List MatchNode),
    t.nodes.toList = front ++ (m.number k front.length).1 ++ back → m.StoredAt t k front.length
  | .node info children, k, front, back, h => by
    rw [Match.number] at h
    dsimp only at h
    let ids := (numberAll (k.below ⟨front.length⟩ info) (front.length + 1) children).2.1
    have hrest := storedFrom_numberAll (t := t) children (k.below ⟨front.length⟩ info)
      (front ++ [⟨info, k.parent, ids, k.pattern, k.scope⟩]) back
    rw [List.length_append, List.length_singleton] at hrest
    rw [Match.StoredAt]
    refine ⟨ids, ?_, hrest (by rw [h]; simp [ids])⟩
    unfold MatchTree.node?
    rw [← Array.getElem?_toList, h, List.append_assoc, List.getElem?_append_right (Nat.le_refl _),
      Nat.sub_self]
    rfl

theorem storedFrom_numberAll {t : MatchTree} : ∀ (ms : List Match) (k : NodeContext)
    (front back : List MatchNode), t.nodes.toList = front ++ (numberAll k front.length ms).1 ++ back →
      StoredFrom t k front.length (numberAll k front.length ms).2.1 ms
  | [], k, front, back, _ => by
    rw [StoredFrom, numberAll]
  | m :: ms, k, front, back, h => by
    obtain ⟨hlength, hafter⟩ := length_number m k front.length
    rw [numberAll] at h ⊢
    dsimp only at h ⊢
    have hfront : (front ++ (m.number k front.length).1).length = (m.number k front.length).2 := by
      rw [List.length_append, hlength, hafter]
    have hrest := storedFrom_numberAll ms k (front ++ (m.number k front.length).1) back
      (by rw [hfront, h]; simp)
    rw [hfront] at hrest
    rw [StoredFrom]
    refine ⟨_, rfl, storedAt_number m k front ((numberAll k (m.number k front.length).2 ms).1 ++ back)
      (by rw [h]; simp), ?_⟩
    rw [← hafter]
    exact hrest

end

theorem Match.StoredAt.node? {t : MatchTree} {k : NodeContext} {i : Nat} {m : Match}
    (h : m.StoredAt t k i) : ∃ ids, t.node? ⟨i⟩ = some ⟨m.info, k.parent, ids, k.pattern, k.scope⟩ ∧
      StoredFrom t (k.below ⟨i⟩ m.info) (i + 1) ids m.children := by
  cases m
  rw [Match.StoredAt] at h
  exact h

theorem Match.StoredAt.parent? {t : MatchTree} {k : NodeContext} {i : Nat} {m : Match}
    (h : m.StoredAt t k i) : t.parent? ⟨i⟩ = k.parent := by
  obtain ⟨ids, hnode, -⟩ := h.node?
  unfold MatchTree.parent?
  rw [hnode]
  rfl

theorem Match.StoredAt.children {t : MatchTree} {k : NodeContext} {i : Nat} {m : Match}
    (h : m.StoredAt t k i) :
    StoredFrom t (k.below ⟨i⟩ m.info) (i + 1) (t.children ⟨i⟩) m.children := by
  obtain ⟨ids, hnode, hbelow⟩ := h.node?
  unfold MatchTree.children
  rw [hnode]
  exact hbelow

/-- The children of a node stand one after the other, and know their parent. -/
theorem StoredFrom.mem_ids {t : MatchTree} {k : NodeContext} : ∀ {ms : List Match} {i : Nat}
    {ids : List NodeId}, StoredFrom t k i ids ms →
      ids.Pairwise (fun a b => a.index < b.index) ∧ ∀ c ∈ ids, i ≤ c.index ∧
        c.index < i + (nodesAll ms).length ∧ t.parent? c = k.parent
  | [], i, ids, h => by
    rw [StoredFrom] at h
    rw [h]
    exact ⟨.nil, by simp⟩
  | m :: ms, i, ids, h => by
    rw [StoredFrom] at h
    obtain ⟨rest, rfl, hfirst, hrest⟩ := h
    obtain ⟨hsorted, hmem⟩ := hrest.mem_ids
    have hpos : 0 < m.nodes.length := by
      rw [Match.nodes_eq]
      exact Nat.succ_pos _
    rw [nodesAll, List.length_append]
    refine ⟨.cons (fun c hc => ?_) hsorted, fun c hc => ?_⟩
    · have := (hmem c hc).1
      exact Nat.lt_of_lt_of_le (Nat.lt_add_of_pos_right hpos) this
    · rcases List.mem_cons.mp hc with rfl | hc
      · exact ⟨Nat.le_refl i, Nat.lt_add_of_pos_right (Nat.add_pos_left hpos _), hfirst.parent?⟩
      · obtain ⟨h1, h2, h3⟩ := hmem c hc
        exact ⟨by omega, by omega, h3⟩

mutual

/-- Every number in the range of a match is that of a part of it, which is stored inside the range. -/
theorem Match.StoredAt.exists_part {t : MatchTree} : ∀ {m : Match} {k : NodeContext} {i j : Nat},
    m.StoredAt t k i → i ≤ j → j < i + m.nodes.length →
      ∃ r l, Match.StoredAt t l j r ∧ j + r.nodes.length ≤ i + m.nodes.length ∧
        (j = i ∧ l = k ∨ ∃ p, i ≤ p ∧ p < j ∧ l.parent = some ⟨p⟩ ∧ ⟨j⟩ ∈ t.children ⟨p⟩)
  | .node info children, k, i, j, h, hij, hj => by
    rcases Nat.eq_or_lt_of_le hij with rfl | hlt
    · exact ⟨_, k, h, Nat.le_refl _, Or.inl ⟨rfl, rfl⟩⟩
    · rw [Match.StoredAt] at h
      obtain ⟨ids, hnode, hbelow⟩ := h
      rw [Match.nodes, List.length_cons] at hj ⊢
      obtain ⟨r, l, hr, hlen, hl⟩ := hbelow.exists_part hlt (by omega)
      refine ⟨r, l, hr, by omega, Or.inr ?_⟩
      rcases hl with ⟨hparent, hmem⟩ | ⟨p, hip, hpj, hp⟩
      · refine ⟨i, Nat.le_refl _, hlt, hparent, ?_⟩
        unfold MatchTree.children
        rw [hnode]
        exact hmem
      · exact ⟨p, by omega, hpj, hp⟩

theorem StoredFrom.exists_part {t : MatchTree} : ∀ {ms : List Match} {k : NodeContext} {i j : Nat}
    {ids : List NodeId}, StoredFrom t k i ids ms → i ≤ j → j < i + (nodesAll ms).length →
      ∃ r l, Match.StoredAt t l j r ∧ j + r.nodes.length ≤ i + (nodesAll ms).length ∧
        (l.parent = k.parent ∧ ⟨j⟩ ∈ ids ∨
          ∃ p, i ≤ p ∧ p < j ∧ l.parent = some ⟨p⟩ ∧ ⟨j⟩ ∈ t.children ⟨p⟩)
  | [], k, i, j, ids, h, hij, hj => by
    rw [nodesAll, List.length_nil] at hj
    omega
  | m :: ms, k, i, j, ids, h, hij, hj => by
    rw [StoredFrom] at h
    obtain ⟨rest, rfl, hfirst, hrest⟩ := h
    rw [nodesAll, List.length_append] at hj ⊢
    rcases Nat.lt_or_ge j (i + m.nodes.length) with hlt | hge
    · obtain ⟨r, l, hr, hlen, hl⟩ := hfirst.exists_part hij hlt
      refine ⟨r, l, hr, by omega, ?_⟩
      rcases hl with ⟨rfl, rfl⟩ | hp
      · exact Or.inl ⟨rfl, List.mem_cons_self⟩
      · exact Or.inr hp
    · obtain ⟨r, l, hr, hlen, hl⟩ := hrest.exists_part hge (by omega)
      refine ⟨r, l, hr, by omega, ?_⟩
      rcases hl with ⟨hparent, hmem⟩ | ⟨p, hip, hp⟩
      · exact Or.inl ⟨hparent, List.mem_cons_of_mem _ hmem⟩
      · exact Or.inr ⟨p, by omega, hp⟩

end

theorem NodeId.eq_of_index_eq {a b : NodeId} (h : a.index = b.index) : a = b := by
  cases a
  cases b
  exact congrArg NodeId.mk h

namespace MatchTree

variable {t : MatchTree} {a b c p x y : NodeId}

/-! ### Nodes above a node -/

/-- Parents come before their children. -/
def ParentsFirst (t : MatchTree) : Prop :=
  ∀ ⦃x p⦄, t.parent? x = some p → p.index < x.index

theorem lt_size_of_parent? (h : t.parent? x = some p) : x.index < t.size := by
  obtain ⟨n, hn, -⟩ := Option.bind_eq_some_iff.mp h
  exact (Array.getElem?_eq_some_iff.mp hn).1

theorem ancestorsUpTo_eq (h : t.ParentsFirst) : ∀ {n n' : Nat} {x : NodeId}, x.index ≤ n → x.index ≤ n' →
    t.ancestorsUpTo n x = t.ancestorsUpTo n' x
  | 0, n', x, hn, hn' => by
    have hnone : t.parent? x = none := by
      rcases hp : t.parent? x with _ | p
      · rfl
      · have := h hp
        omega
    cases n' with
    | zero => rfl
    | succ n' => rw [ancestorsUpTo, ancestorsUpTo, hnone]
  | n + 1, 0, x, hn, hn' => (ancestorsUpTo_eq h hn' hn).symm
  | n + 1, n' + 1, x, hn, hn' => by
    rw [ancestorsUpTo, ancestorsUpTo]
    rcases hp : t.parent? x with _ | p
    · rfl
    · have := h hp
      dsimp only
      rw [ancestorsUpTo_eq h (show p.index ≤ n by omega) (show p.index ≤ n' by omega)]

theorem ancestors_of_parent? (h : t.ParentsFirst) (hp : t.parent? x = some p) :
    t.ancestors x = p :: t.ancestors p := by
  have hx := lt_size_of_parent? hp
  have hlt := h hp
  obtain ⟨n, hn⟩ := Nat.exists_eq_succ_of_ne_zero (Nat.ne_zero_of_lt hx)
  unfold ancestors
  rw [hn, ancestorsUpTo, hp]
  dsimp only
  rw [ancestorsUpTo_eq h (show p.index ≤ n by omega) (show p.index ≤ n.succ by omega)]

theorem ancestors_of_parent?_eq_none (h : t.parent? x = none) : t.ancestors x = [] := by
  unfold ancestors
  cases t.size with
  | zero => rfl
  | succ n => rw [ancestorsUpTo, h]

/-- **The nodes above a node** are its parent and those above the parent. -/
theorem mem_ancestors_iff (h : t.ParentsFirst) :
    a ∈ t.ancestors x ↔ ∃ p, t.parent? x = some p ∧ (a = p ∨ a ∈ t.ancestors p) := by
  rcases hp : t.parent? x with _ | p
  · simp [ancestors_of_parent?_eq_none hp]
  · simp [ancestors_of_parent? h hp]

theorem index_lt_of_mem_ancestors (h : t.ParentsFirst) (ha : a ∈ t.ancestors x) : a.index < x.index := by
  induction hn : x.index using Nat.strong_induction_on generalizing x with
  | _ n ih =>
    obtain ⟨p, hp, rfl | hmem⟩ := (mem_ancestors_iff h).mp ha
    · exact hn ▸ h hp
    · have hlt := h hp
      have := ih p.index (by omega) hmem rfl
      omega

theorem mem_ancestors_trans (h : t.ParentsFirst) (ha : a ∈ t.ancestors b) (hb : b ∈ t.ancestors c) :
    a ∈ t.ancestors c := by
  induction hn : c.index using Nat.strong_induction_on generalizing c with
  | _ n ih =>
    obtain ⟨p, hp, hbp⟩ := (mem_ancestors_iff h).mp hb
    refine (mem_ancestors_iff h).mpr ⟨p, hp, Or.inr ?_⟩
    rcases hbp with rfl | hmem
    · exact ha
    · have := h hp
      exact ih p.index (by omega) hmem rfl

/-! ### Trees in pre-order -/

/-- The links of a tree whose nodes are numbered in pre-order. -/
structure IsPreorder (t : MatchTree) : Prop where
  parentsFirst : t.ParentsFirst
  mem_children_iff : ∀ {x p}, x ∈ t.children p ↔ t.parent? x = some p
  exists_parent : ∀ {x : NodeId}, x ≠ root → x.index < t.size → ∃ p, t.parent? x = some p
  sorted : ∀ p, (t.children p).Pairwise fun a b => a.index < b.index
  /-- What stands between a parent and its child is below the parent. -/
  between : ∀ {x y p}, t.parent? x = some p → p.index < y.index → y.index < x.index → p ∈ t.ancestors y

theorem isPreorder_empty : empty.IsPreorder where
  parentsFirst := by simp [ParentsFirst, parent?, node?, empty]
  mem_children_iff := by simp [children, parent?, node?, empty]
  exists_parent := by simp [size, empty]
  sorted := by simp [children, node?, empty]
  between := by simp [parent?, node?, empty]

theorem storedAt_ofMatch (m : Match) : m.StoredAt (ofMatch m) {} 0 := by
  refine storedAt_number m {} [] [] ?_
  simp [ofMatch]

theorem size_ofMatch (m : Match) : (ofMatch m).size = m.nodes.length := by
  unfold size ofMatch
  rw [List.size_toArray, (length_number m {} 0).1]

/-- What a node of a tree is stored for, and where its parent is. -/
theorem exists_part_ofMatch {m : Match} (hx : x.index < (ofMatch m).size) :
    ∃ r k, Match.StoredAt (ofMatch m) k x.index r ∧ x.index + r.nodes.length ≤ (ofMatch m).size ∧
      (x = root ∧ k.parent = none ∨
        ∃ p, p.index < x.index ∧ k.parent = some p ∧ x ∈ (ofMatch m).children p) := by
  rw [size_ofMatch] at hx ⊢
  obtain ⟨r, k, hr, hlen, hk⟩ := (storedAt_ofMatch m).exists_part (Nat.zero_le x.index) (by omega)
  refine ⟨r, k, hr, by omega, ?_⟩
  rcases hk with ⟨h0, rfl⟩ | ⟨p, -, hlt, hparent, hmem⟩
  · exact Or.inl ⟨NodeId.eq_of_index_eq h0, rfl⟩
  · exact Or.inr ⟨⟨p⟩, hlt, hparent, hmem⟩

end MatchTree

/-- Everything in the range of a match is below its node. -/
theorem Match.StoredAt.mem_ancestors {t : MatchTree} (ht : t.ParentsFirst) {k : NodeContext} {i j : Nat}
    {m : Match} (h : m.StoredAt t k i) (hij : i < j) (hj : j < i + m.nodes.length) :
    ⟨i⟩ ∈ t.ancestors ⟨j⟩ := by
  induction j using Nat.strong_induction_on with
  | _ j ih =>
    obtain ⟨r, l, hr, -, ⟨rfl, -⟩ | ⟨p, hip, hpj, hl, -⟩⟩ := h.exists_part (Nat.le_of_lt hij) hj
    · omega
    · refine (MatchTree.mem_ancestors_iff ht).mpr ⟨⟨p⟩, hr.parent?.trans hl, ?_⟩
      rcases Nat.eq_or_lt_of_le hip with rfl | hlt
      · exact Or.inl rfl
      · exact Or.inr (ih p hpj hlt (by omega))

namespace MatchTree

variable {t : MatchTree} {a b c p x y : NodeId}

theorem lt_size_of_mem_children (h : x ∈ t.children p) : p.index < t.size := by
  unfold children at h
  rcases hn : t.node? p with _ | n
  · rw [hn] at h
    simp at h
  · exact (Array.getElem?_eq_some_iff.mp hn).1

theorem exists_parent_ofMatch {m : Match} (hx : x.index < (ofMatch m).size) (hroot : x ≠ root) :
    ∃ p, p.index < x.index ∧ (ofMatch m).parent? x = some p ∧ x ∈ (ofMatch m).children p := by
  obtain ⟨r, k, hr, -, ⟨rfl, -⟩ | ⟨p, hlt, hparent, hmem⟩⟩ := exists_part_ofMatch hx
  · exact absurd rfl hroot
  · exact ⟨p, hlt, hr.parent?.trans hparent, hmem⟩

theorem parent?_root_ofMatch (m : Match) : (ofMatch m).parent? root = none :=
  (storedAt_ofMatch m).parent?

/-- **The tree of a match is in pre-order.** -/
theorem isPreorder_ofMatch (m : Match) : (ofMatch m).IsPreorder := by
  have hparent : ∀ {x p}, (ofMatch m).parent? x = some p →
      p.index < x.index ∧ x ∈ (ofMatch m).children p := by
    intro x p hp
    have hroot : x ≠ root := by
      rintro rfl
      rw [parent?_root_ofMatch] at hp
      cases hp
    obtain ⟨q, hlt, hq, hmem⟩ := exists_parent_ofMatch (lt_size_of_parent? hp) hroot
    obtain rfl := Option.some.inj (hp.symm.trans hq)
    exact ⟨hlt, hmem⟩
  have hfirst : (ofMatch m).ParentsFirst := fun x p hp => (hparent hp).1
  have hchildren : ∀ {x p}, x ∈ (ofMatch m).children p → ∃ r k, Match.StoredAt (ofMatch m) k p.index r ∧
      StoredFrom (ofMatch m) (k.below p r.info) (p.index + 1) ((ofMatch m).children p) r.children := by
    intro x p hx
    obtain ⟨r, k, hr, -⟩ := exists_part_ofMatch (lt_size_of_mem_children hx)
    exact ⟨r, k, hr, hr.children⟩
  refine ⟨hfirst, fun {x p} => ⟨fun hx => ?_, fun hp => (hparent hp).2⟩, fun hroot hx => ?_, fun p => ?_,
    fun {x y p} hp hpy hyx => ?_⟩
  · obtain ⟨r, k, -, hbelow⟩ := hchildren hx
    exact (hbelow.mem_ids.2 x hx).2.2
  · obtain ⟨p, -, hp, -⟩ := exists_parent_ofMatch hx hroot
    exact ⟨p, hp⟩
  · rcases hids : (ofMatch m).children p with _ | ⟨x, xs⟩
    · exact .nil
    · obtain ⟨r, k, -, hbelow⟩ := hchildren (p := p) (x := x) (by rw [hids]; exact List.mem_cons_self)
      rw [← hids]
      exact hbelow.mem_ids.1
  · obtain ⟨r, k, hr, hbelow⟩ := hchildren (hparent hp).2
    have hx := (hbelow.mem_ids.2 x (hparent hp).2).2.1
    refine hr.mem_ancestors hfirst hpy ?_
    rw [Match.nodes_eq, List.length_cons]
    omega

/-- The trees that there are: the tree of a match, and the one without nodes. -/
inductive IsTree : MatchTree → Prop where
  | empty : IsTree .empty
  | ofMatch (m : Match) : IsTree (.ofMatch m)

theorem IsTree.isPreorder (h : t.IsTree) : t.IsPreorder := by
  cases h with
  | empty => exact isPreorder_empty
  | ofMatch m => exact isPreorder_ofMatch m

/-! ### What is below a node -/

namespace IsPreorder

variable (h : t.IsPreorder)

include h

/-- What stands between a node and something below it is below the node. -/
theorem mem_ancestors_of_between (ha : a ∈ t.ancestors x) (hay : a.index < y.index)
    (hyx : y.index < x.index) : a ∈ t.ancestors y := by
  have hfirst := h.parentsFirst
  induction hn : x.index using Nat.strong_induction_on generalizing x with
  | _ n ih =>
    obtain ⟨p, hp, hap⟩ := (mem_ancestors_iff hfirst).mp ha
    have hlt := hfirst hp
    rcases Nat.lt_trichotomy y.index p.index with hyp | hyp | hyp
    · rcases hap with rfl | hmem
      · omega
      · exact ih p.index (by omega) hmem hyp rfl
    · obtain rfl := NodeId.eq_of_index_eq hyp
      rcases hap with rfl | hmem
      · omega
      · exact hmem
    · have hpy := h.between hp hyp hyx
      rcases hap with rfl | hmem
      · exact hpy
      · exact mem_ancestors_trans hfirst hmem hpy

/-- What is below a node comes before the next sibling of the node. -/
theorem index_lt_of_sibling (hb : t.parent? b = some p) (ha : t.parent? a = some p)
    (hab : a.index < b.index) (hx : x = a ∨ a ∈ t.ancestors x) : x.index < b.index := by
  have hfirst := h.parentsFirst
  by_contra hbx
  -- otherwise the sibling would be below the node, but what is above it is the parent or further up
  have hmem : a ∈ t.ancestors b := by
    rcases hx with rfl | hx
    · omega
    · rcases Nat.eq_or_lt_of_le (Nat.le_of_not_lt hbx) with heq | hlt
      · exact NodeId.eq_of_index_eq heq ▸ hx
      · exact h.mem_ancestors_of_between hx hab hlt
  obtain ⟨q, hq, haq⟩ := (mem_ancestors_iff hfirst).mp hmem
  obtain rfl := Option.some.inj (hb.symm.trans hq)
  have := hfirst ha
  rcases haq with rfl | haq
  · omega
  · have := index_lt_of_mem_ancestors hfirst haq
    omega

theorem index_le_of_below (hx : x = a ∨ a ∈ t.ancestors x) : a.index ≤ x.index := by
  rcases hx with rfl | hx
  · exact Nat.le_refl _
  · exact Nat.le_of_lt (index_lt_of_mem_ancestors h.parentsFirst hx)

/-- Nodes in or below siblings in ascending order are in ascending order if they are so for each sibling. -/
theorem pairwise_flatMap {f : NodeId → List NodeId} {ids : List NodeId} (hids : ids.Sublist (t.children p))
    (hf : ∀ c ∈ ids, (f c).Pairwise fun x y => x.index < y.index)
    (hbelow : ∀ c ∈ ids, ∀ x ∈ f c, x = c ∨ c ∈ t.ancestors x) :
    (ids.flatMap f).Pairwise fun x y => x.index < y.index := by
  have hparent : ∀ c ∈ ids, t.parent? c = some p := fun c hc => h.mem_children_iff.mp (hids.subset hc)
  rw [List.pairwise_flatMap]
  refine ⟨hf, ((h.sorted p).sublist hids).imp_of_mem ?_⟩
  intro b c hb hc hbc x hx y hy
  have hxc := h.index_lt_of_sibling (hparent c hc) (hparent b hb) hbc (hbelow b hb x hx)
  exact Nat.lt_of_lt_of_le hxc (h.index_le_of_below (hbelow c hc y hy))

/-- The child on the way to a node below. -/
theorem exists_child (ha : a ∈ t.ancestors x) :
    ∃ c ∈ t.children a, x = c ∨ c ∈ t.ancestors x := by
  have hfirst := h.parentsFirst
  induction hn : x.index using Nat.strong_induction_on generalizing x with
  | _ n ih =>
    obtain ⟨p, hparent, rfl | hap⟩ := (mem_ancestors_iff hfirst).mp ha
    · exact ⟨x, h.mem_children_iff.mpr hparent, Or.inl rfl⟩
    · obtain ⟨c, hc, hcp⟩ := ih p.index (hn ▸ hfirst hparent) hap rfl
      exact ⟨c, hc, Or.inr ((mem_ancestors_iff hfirst).mpr ⟨p, hparent, hcp.imp Eq.symm id⟩)⟩

theorem below_trans (hxb : x = b ∨ b ∈ t.ancestors x) (hba : b = a ∨ a ∈ t.ancestors b) :
    x = a ∨ a ∈ t.ancestors x := by
  rcases hxb with rfl | hxb
  · exact hba
  · rcases hba with rfl | hba
    · exact Or.inr hxb
    · exact Or.inr (mem_ancestors_trans h.parentsFirst hba hxb)

theorem mem_ancestors_of_child (hc : c ∈ t.children a) (hx : x = c ∨ c ∈ t.ancestors x) :
    a ∈ t.ancestors x := by
  have hac : a ∈ t.ancestors c :=
    (mem_ancestors_iff h.parentsFirst).mpr ⟨a, h.mem_children_iff.mp hc, Or.inl rfl⟩
  rcases hx with rfl | hx
  · exact hac
  · exact mem_ancestors_trans h.parentsFirst hac hx

/-- The children of a node have nothing below them in common. -/
theorem eq_of_below (hb : b ∈ t.children a) (hc : c ∈ t.children a)
    (hxb : x = b ∨ b ∈ t.ancestors x) (hxc : x = c ∨ c ∈ t.ancestors x) : b = c := by
  have hb := h.mem_children_iff.mp hb
  have hc := h.mem_children_iff.mp hc
  rcases Nat.lt_trichotomy b.index c.index with hlt | heq | hlt
  · exact absurd (h.index_le_of_below hxc) (Nat.not_le.mpr (h.index_lt_of_sibling hc hb hlt hxb))
  · exact NodeId.eq_of_index_eq heq
  · exact absurd (h.index_le_of_below hxb) (Nat.not_le.mpr (h.index_lt_of_sibling hb hc hlt hxc))

end IsPreorder

end MatchTree

end ShaderAssist

import ShaderAssist.Proofs.Match.Attempts
import ShaderAssist.Proofs.Match.Live

/-!
# Captures

A capture of a node under a name is a node with this name below it, and no node in between keeps its parts for
itself, because it has a name or stands for a pattern or a scope. If the node holds attempts, the capture is in the
best one (`MatchTree.IsCapture`). A tree lists the captures of a node once each and in ascending order
(`IsPreorder.mem_captures_iff`, `IsPreorder.pairwise_captures`), which is the order in which a search with a stack
finds them (`IsPreorder.finds_captures`).

In the tree of a document this is the order in which they start (`Ordered.pairwise_captures`). Attempts
overlap, but there are no captures in more than one of them: nodes between a node and its captures hold attempts only
if they are skipped lines, and the attempts on a line keep their parts (`ordered_tree`).
-/

namespace ShaderAssist

/-- Whether a node keeps what is below it for itself. -/
def MatchInfo.keepsParts (info : MatchInfo) : Bool :=
  info.name.isSome || info.isPattern || info.isScope

namespace MatchTree

variable {t : MatchTree} {name : String} {a b c p x y : NodeId} {n : Nat}

/-- The name of a node. -/
def name? (t : MatchTree) (id : NodeId) : Option String :=
  (t.node? id).bind fun n => n.name

/-- Whether a node keeps what is below it for itself. -/
def keepsParts (t : MatchTree) (id : NodeId) : Bool :=
  (t.node? id).any fun n => n.keepsParts

/-- **A capture** `x` of the node `a` under a name. -/
structure IsCapture (t : MatchTree) (a : NodeId) (name : String) (x : NodeId) : Prop where
  named : t.name? x = some name
  below : a ∈ t.ancestors x
  /-- No node in between keeps its parts. -/
  clear : ∀ y ∈ t.ancestors x, a ∈ t.ancestors y → ¬ t.keepsParts y
  /-- Of attempts only the best one counts. -/
  best : t.holdsAttempts a → ∃ c ∈ t.bestAttempt a, x = c ∨ c ∈ t.ancestors x

/-! ### Ways to captures -/

theorem keepsParts_of_name? (h : t.name? a = some name) : t.keepsParts a := by
  obtain ⟨n, hn, hname⟩ := Option.bind_eq_some_iff.mp h
  unfold keepsParts MatchInfo.keepsParts
  rw [hn, Option.any_some, hname]
  rfl

theorem capturesUpTo_succ (t : MatchTree) (name : String) (n : Nat) (a : NodeId) :
    t.capturesUpTo name (n + 1) a =
      if t.name? a = some name then [a]
      else if t.keepsParts a then []
      else (t.children a).flatMap (t.capturesUpTo name n) := by
  rw [capturesUpTo]
  unfold name? keepsParts children
  cases t.node? a <;> rfl

/-- A way down a tree through nodes that do not keep their parts. -/
def OpenWay (t : MatchTree) : NodeId → NodeId → Prop :=
  Relation.ReflTransGen fun p c => ¬ t.keepsParts p ∧ c ∈ t.children p

theorem openWay_of_mem_capturesUpTo (hx : x ∈ t.capturesUpTo name n a) :
    t.name? x = some name ∧ t.OpenWay a x := by
  induction n generalizing a with
  | zero => cases hx
  | succ n ih =>
    rw [capturesUpTo_succ] at hx
    split_ifs at hx with hname hkeeps
    · obtain rfl := List.mem_singleton.mp hx
      exact ⟨hname, .refl⟩
    · cases hx
    · obtain ⟨c, hc, hx⟩ := List.mem_flatMap.mp hx
      obtain ⟨hnamed, hway⟩ := ih hx
      exact ⟨hnamed, .head ⟨hkeeps, hc⟩ hway⟩

section Preorder

variable (h : t.IsPreorder)

include h

/-- The levels suffice, because numbers grow along a way. -/
theorem IsPreorder.mem_capturesUpTo (hway : t.OpenWay a x) (hname : t.name? x = some name)
    (ha : a.index < t.size) (hn : t.size ≤ a.index + n) : x ∈ t.capturesUpTo name n a := by
  induction hway using Relation.ReflTransGen.head_induction_on generalizing n with
  | refl =>
    obtain ⟨n, rfl⟩ := Nat.exists_eq_succ_of_ne_zero (show n ≠ 0 by omega)
    rw [capturesUpTo_succ, if_pos hname]
    exact List.mem_singleton_self x
  | @head a c hstep _ ih =>
    obtain ⟨n, rfl⟩ := Nat.exists_eq_succ_of_ne_zero (show n ≠ 0 by omega)
    obtain ⟨hopen, hc⟩ := hstep
    have hparent := h.mem_children_iff.mp hc
    have hlt := h.parentsFirst hparent
    rw [capturesUpTo_succ, if_neg fun hname => hopen (keepsParts_of_name? hname), if_neg hopen]
    exact List.mem_flatMap.mpr ⟨c, hc, ih (lt_size_of_parent? hparent) (by omega)⟩

theorem IsPreorder.mem_capturesUpTo_size_iff (hc : c ∈ t.children p) :
    x ∈ t.capturesUpTo name t.size c ↔ t.name? x = some name ∧ t.OpenWay c x :=
  ⟨openWay_of_mem_capturesUpTo, fun hx => h.mem_capturesUpTo hx.2 hx.1
    (lt_size_of_parent? (h.mem_children_iff.mp hc)) (Nat.le_add_left _ _)⟩

/-- **Open ways** lead from a node to those below it, unless a node in between keeps its parts. -/
theorem IsPreorder.openWay_iff : t.OpenWay a x ↔ (x = a ∨ a ∈ t.ancestors x) ∧
    ∀ y ∈ t.ancestors x, y = a ∨ a ∈ t.ancestors y → ¬ t.keepsParts y := by
  have hfirst := h.parentsFirst
  constructor
  · intro hway
    induction hway with
    | refl =>
      refine ⟨Or.inl rfl, fun y hy hya => ?_⟩
      exact absurd (index_lt_of_mem_ancestors hfirst hy) (Nat.not_lt.mpr (h.index_le_of_below hya))
    | @tail p c _ hstep ih =>
      have hparent := h.mem_children_iff.mp hstep.2
      refine ⟨Or.inr ((mem_ancestors_iff hfirst).mpr ⟨p, hparent, ih.1.imp Eq.symm id⟩), fun y hy hya => ?_⟩
      rw [ancestors_of_parent? hfirst hparent] at hy
      rcases List.mem_cons.mp hy with rfl | hy
      · exact hstep.1
      · exact ih.2 y hy hya
  · rintro ⟨hbelow, hclear⟩
    induction hn : x.index using Nat.strong_induction_on generalizing x with
    | _ n ih =>
      rcases hbelow with rfl | hbelow
      · exact .refl
      · obtain ⟨p, hparent, hap⟩ := (mem_ancestors_iff hfirst).mp hbelow
        have hup := ancestors_of_parent? hfirst hparent
        have hpa : p = a ∨ a ∈ t.ancestors p := hap.imp Eq.symm id
        have hway := ih p.index (hn ▸ hfirst hparent) hpa
          (fun y hy => hclear y (by rw [hup]; exact List.mem_cons_of_mem p hy)) rfl
        refine hway.tail ⟨hclear p ?_ hpa, h.mem_children_iff.mpr hparent⟩
        rw [hup]
        exact List.mem_cons_self

/-! ### The list of captures -/

/-- **The captures of a node** are those that its tree lists. -/
theorem IsPreorder.mem_captures_iff : x ∈ t.captures a name ↔ t.IsCapture a name x := by
  unfold captures
  rw [List.mem_flatMap]
  constructor
  · rintro ⟨c, hlive, hx⟩
    have hc := (t.liveChildren_sublist a).subset hlive
    obtain ⟨hname, hway⟩ := (h.mem_capturesUpTo_size_iff hc).mp hx
    obtain ⟨hbelow, hclear⟩ := h.openWay_iff.mp hway
    refine ⟨hname, h.mem_ancestors_of_child hc hbelow, fun y hy hay => hclear y hy ?_, fun hattempts => ?_⟩
    · -- the child above `y` is the one above `x`
      obtain ⟨b, hb, hyb⟩ := h.exists_child hay
      obtain rfl := h.eq_of_below hb hc (h.below_trans (Or.inr hy) hyb) hbelow
      exact hyb
    · rw [liveChildren_of_holdsAttempts hattempts, Option.mem_toList] at hlive
      exact ⟨c, hlive, hbelow⟩
  · intro hx
    obtain ⟨c, hlive, hc, hbelow⟩ : ∃ c ∈ t.liveChildren a, c ∈ t.children a ∧ (x = c ∨ c ∈ t.ancestors x) := by
      by_cases hattempts : t.holdsAttempts a
      · obtain ⟨c, hc, hbelow⟩ := hx.best hattempts
        rw [liveChildren_of_holdsAttempts hattempts]
        exact ⟨c, Option.mem_toList.mpr hc, mem_children_of_bestAttempt hc, hbelow⟩
      · obtain ⟨c, hc, hbelow⟩ := h.exists_child hx.below
        rw [liveChildren_of_not_holdsAttempts hattempts]
        exact ⟨c, hc, hc, hbelow⟩
    refine ⟨c, hlive, (h.mem_capturesUpTo_size_iff hc).mpr ⟨hx.named, h.openWay_iff.mpr ⟨hbelow, ?_⟩⟩⟩
    exact fun y hy hyc => hx.clear y hy (h.mem_ancestors_of_child hc hyc)

theorem IsPreorder.below_of_mem_capturesUpTo (hx : x ∈ t.capturesUpTo name n a) : x = a ∨ a ∈ t.ancestors x :=
  (h.openWay_iff.mp (openWay_of_mem_capturesUpTo hx).2).1

theorem IsPreorder.pairwise_capturesUpTo (name : String) (n : Nat) (a : NodeId) :
    (t.capturesUpTo name n a).Pairwise fun x y => x.index < y.index := by
  induction n generalizing a with
  | zero => exact .nil
  | succ n ih =>
    rw [capturesUpTo_succ]
    split_ifs
    · exact List.pairwise_singleton _ _
    · exact .nil
    · exact h.pairwise_flatMap (.refl _) (fun c _ => ih c) fun _ _ _ hx => h.below_of_mem_capturesUpTo hx

/-- Captures come in ascending order. -/
theorem IsPreorder.pairwise_captures (a : NodeId) (name : String) :
    (t.captures a name).Pairwise fun x y => x.index < y.index :=
  h.pairwise_flatMap (t.liveChildren_sublist a) (fun c _ => h.pairwise_capturesUpTo name t.size c)
    fun _ _ _ hx => h.below_of_mem_capturesUpTo hx

end Preorder

/-! ### A search with a stack -/

/-- A search takes one node after the other from a stack; these are the nodes it finds until the stack is empty. -/
inductive Finds (t : MatchTree) (name : String) : List NodeId → List NodeId → Prop where
  | done : Finds t name [] []
  /-- A node with the name is found, and nothing below it is looked at. -/
  | found {x : NodeId} {stack found : List NodeId} : t.name? x = some name → Finds t name stack found →
    Finds t name (x :: stack) (x :: found)
  /-- Another node that keeps its parts is passed over. -/
  | passed {x : NodeId} {stack found : List NodeId} : t.name? x ≠ some name → t.keepsParts x →
    Finds t name stack found → Finds t name (x :: stack) found
  /-- In the place of every other node its children are put, the first one on top. -/
  | opened {x : NodeId} {stack found : List NodeId} : ¬ t.keepsParts x →
    Finds t name (t.children x ++ stack) found → Finds t name (x :: stack) found

/-- What is below the topmost node is found before the rest of the stack. -/
theorem IsPreorder.finds_capturesUpTo (h : t.IsPreorder) {stack found : List NodeId} (ha : a.index < t.size)
    (hn : t.size ≤ a.index + n) (hrest : t.Finds name stack found) :
    t.Finds name (a :: stack) (t.capturesUpTo name n a ++ found) := by
  induction n generalizing a stack found with
  | zero => omega
  | succ n ih =>
    rw [capturesUpTo_succ]
    split_ifs with hname hkeeps
    · exact .found hname hrest
    · exact .passed hname hkeeps hrest
    · refine .opened hkeeps (stack_flatMap hrest fun c hc stack found hstack => ?_)
      have hparent := h.mem_children_iff.mp hc
      have hlt := h.parentsFirst hparent
      exact ih (lt_size_of_parent? hparent) (by omega) hstack

/-- **A search below a node** finds its captures. -/
theorem IsPreorder.finds_captures (h : t.IsPreorder) (a : NodeId) (name : String) :
    t.Finds name (t.liveChildren a) (t.captures a name) := by
  have hsearch := stack_flatMap (R := t.Finds name) (f := t.capturesUpTo name t.size) .done
    fun c (hc : c ∈ t.liveChildren a) stack found hstack =>
      h.finds_capturesUpTo (lt_size_of_parent? (h.parent?_of_mem_liveChildren hc)) (Nat.le_add_left _ _) hstack
  rw [List.append_nil, List.append_nil] at hsearch
  exact hsearch

/-! ### The order of starts -/

/-- How the nodes of the tree of a document lie, and what the attempts in it keep. -/
structure Ordered (t : MatchTree) : Prop where
  le : ∀ x, t.start x ≤ t.stop x
  inside : ∀ p, ∀ c ∈ t.children p, t.start p ≤ t.start c ∧ t.stop c ≤ t.stop p
  apart : ∀ p, ¬ t.holdsAttempts p → (t.children p).Pairwise fun b c => t.stop b ≤ t.start c
  closed : ∀ p, t.holdsAttempts p → ¬ t.keepsParts p → ∀ c ∈ t.children p,
    t.name? c = none ∧ (t.keepsParts c ∨ t.children c = [])

namespace Ordered

variable (h : t.Ordered)

include h

theorem inside_of_openWay (hway : t.OpenWay a x) : t.start a ≤ t.start x ∧ t.stop x ≤ t.stop a := by
  induction hway with
  | refl => exact ⟨Nat.le_refl _, Nat.le_refl _⟩
  | tail _ hstep ih =>
    obtain ⟨hstart, hstop⟩ := h.inside _ _ hstep.2
    exact ⟨Nat.le_trans ih.1 hstart, Nat.le_trans hstop ih.2⟩

/-- Captures in nodes that lie apart start in order if they do so in each node. -/
theorem pairwise_flatMap {ids : List NodeId} (hapart : ids.Pairwise fun b c => t.stop b ≤ t.start c)
    (hids : ∀ c ∈ ids, (t.capturesUpTo name n c).Pairwise fun x y => t.start x ≤ t.start y) :
    (ids.flatMap (t.capturesUpTo name n)).Pairwise fun x y => t.start x ≤ t.start y := by
  rw [List.pairwise_flatMap]
  refine ⟨hids, hapart.imp fun {b c} hbc x hx y hy => ?_⟩
  have hxb := h.inside_of_openWay (openWay_of_mem_capturesUpTo hx).2
  have hyc := h.inside_of_openWay (openWay_of_mem_capturesUpTo hy).2
  calc t.start x ≤ t.stop x := h.le x
    _ ≤ t.stop b := hxb.2
    _ ≤ t.start c := hbc
    _ ≤ t.start y := hyc.1

omit h in
theorem capturesUpTo_eq_nil (hname : t.name? c = none) (hkeeps : t.keepsParts c ∨ t.children c = []) :
    t.capturesUpTo name n c = [] := by
  cases n with
  | zero => rfl
  | succ n =>
    rw [capturesUpTo_succ, hname, if_neg (Option.some_ne_none name).symm]
    rcases hkeeps with hkeeps | hleaf
    · rw [if_pos hkeeps]
    · rw [hleaf, List.flatMap_nil, ite_self]

theorem pairwise_capturesUpTo (name : String) (n : Nat) (a : NodeId) :
    (t.capturesUpTo name n a).Pairwise fun x y => t.start x ≤ t.start y := by
  induction n generalizing a with
  | zero => exact .nil
  | succ n ih =>
    rw [capturesUpTo_succ]
    split_ifs with hname hkeeps
    · exact List.pairwise_singleton _ _
    · exact .nil
    · by_cases hattempts : t.holdsAttempts a
      · have hnil : (t.children a).flatMap (t.capturesUpTo name n) = [] := by
          refine List.flatMap_eq_nil_iff.mpr fun c hc => ?_
          obtain ⟨hname, hclosed⟩ := h.closed a hattempts hkeeps c hc
          exact capturesUpTo_eq_nil hname hclosed
        rw [hnil]
        exact .nil
      · exact h.pairwise_flatMap (h.apart a hattempts) fun c _ => ih c

/-- **Captures start in order.** -/
theorem pairwise_captures (a : NodeId) (name : String) :
    (t.captures a name).Pairwise fun x y => t.start x ≤ t.start y := by
  refine h.pairwise_flatMap ?_ fun c _ => h.pairwise_capturesUpTo name t.size c
  by_cases hattempts : t.holdsAttempts a
  · rw [liveChildren_of_holdsAttempts hattempts]
    cases t.bestAttempt a with
    | none => exact .nil
    | some c => exact List.pairwise_singleton _ c
  · rw [liveChildren_of_not_holdsAttempts hattempts]
    exact h.apart a hattempts

end Ordered

/-! ### Trees of documents -/

theorem children_of_node? {node : MatchNode} (hn : t.node? p = some node) : t.children p = node.children := by
  rw [children, hn]
  rfl

/-- A node of the tree of a match stands for a part of the match. -/
theorem exists_standsFor {m : Match} {node : MatchNode} (hn : (ofMatch m).node? p = some node) :
    ∃ r ∈ m.nodes, (ofMatch m).StandsFor m.nodes p.index node r := by
  obtain ⟨r, hr, -⟩ := exists_of_node? hn
  obtain ⟨node', hn', hstands⟩ := standsFor_ofMatch hr
  obtain rfl := Option.some.inj (hn.symm.trans hn')
  exact ⟨r, List.mem_of_getElem? hr, hstands⟩

theorem range_of_getElem?_nodes {m r : Match} (hr : m.nodes[x.index]? = some r) :
    (ofMatch m).start x = r.start ∧ (ofMatch m).stop x = r.stop := by
  obtain ⟨node, hn, hstands⟩ := standsFor_ofMatch hr
  rw [start_of_node? hn, stop_of_node? hn, hstands.info]
  exact ⟨rfl, rfl⟩

/-- A child in the tree of a match stands for a child of the part that its parent stands for. -/
theorem exists_parts_of_mem_children {m : Match} (hc : c ∈ (ofMatch m).children p) : ∃ node r, ∃ s ∈ r.children,
    r ∈ m.nodes ∧ m.nodes[c.index]? = some s ∧ (ofMatch m).node? p = some node ∧
      (ofMatch m).StandsFor m.nodes p.index node r := by
  cases hn : (ofMatch m).node? p with
  | none =>
    rw [children, hn] at hc
    cases hc
  | some node =>
    obtain ⟨r, hr, hstands⟩ := exists_standsFor hn
    rw [children_of_node? hn] at hc
    obtain ⟨s, hs, hget⟩ := Layout.exists_of_forall₂ hstands.children.flip c hc
    exact ⟨node, r, s, hs, hr, hget, rfl, hstands⟩

/-- An order of some matches is an order of the numbers that refer to them. -/
theorem pairwise_of_refers {all ms : List Match} {ids : List NodeId} {P : Match → Match → Prop}
    {Q : NodeId → NodeId → Prop} (h : Refers all ids ms)
    (hPQ : ∀ b c r s, all[b.index]? = some r → all[c.index]? = some s → P r s → Q b c) (hms : ms.Pairwise P) :
    ids.Pairwise Q := by
  induction h with
  | nil => exact .nil
  | cons hbr hrest ih =>
    obtain ⟨hfirst, hlater⟩ := List.pairwise_cons.mp hms
    refine .cons (fun c hc => ?_) (ih hlater)
    obtain ⟨s, hs, hcs⟩ := Layout.exists_of_forall₂ hrest.flip c hc
    exact hPQ _ c _ s hbr hcs (hfirst s hs)

theorem closed_of_isClosed {m s : Match} (hc : m.nodes[c.index]? = some s) (hs : s.IsClosed) :
    (ofMatch m).name? c = none ∧ ((ofMatch m).keepsParts c ∨ (ofMatch m).children c = []) := by
  obtain ⟨child, hchild, hstands⟩ := standsFor_ofMatch hc
  have hinfo := hstands.info
  refine ⟨?_, hs.2.imp (fun hpattern => ?_) fun hleaf => ?_⟩
  · rw [name?, hchild, Option.bind_some, hinfo, hs.1]
  · rw [keepsParts, hchild, Option.any_some, hinfo, MatchInfo.keepsParts, hpattern]
    simp
  · have hrefers := hstands.children
    rw [hleaf] at hrefers
    rw [children_of_node? hchild]
    exact List.forall₂_nil_right_iff.mp hrefers

/-- **The tree of a document is ordered.** -/
theorem ordered_tree {E : Engine} {g : Grammar} {m : Matcher} (hg : g.compile E = .ok m.grammar) :
    m.tree.Ordered := by
  have hlaid : ∀ r ∈ m.matchDocument.value.nodes, r.Laid m.document :=
    Matcher.laid_nodes _ _ m.document.restAt_zero.isBoundary
  unfold Matcher.tree
  refine ⟨fun x => ?_, fun p c hc => ?_, fun p hp => ?_, fun p hattempts hkeeps c hc => ?_⟩
  · cases hn : (ofMatch m.matchDocument.value).node? x with
    | none =>
      rw [start, hn]
      exact Nat.zero_le _
    | some node =>
      obtain ⟨r, hr, hstands⟩ := exists_standsFor hn
      rw [start_of_node? hn, stop_of_node? hn, hstands.info]
      exact (hlaid r hr).le
  · obtain ⟨node, r, s, hs, hr, hget, hn, hstands⟩ := exists_parts_of_mem_children hc
    obtain ⟨hstart, hstop⟩ := range_of_getElem?_nodes hget
    rw [start_of_node? hn, stop_of_node? hn, hstands.info, hstart, hstop]
    exact (hlaid r hr).nested.inside s.info (List.mem_map_of_mem hs)
  · cases hn : (ofMatch m.matchDocument.value).node? p with
    | none =>
      rw [children, hn]
      exact .nil
    | some node =>
      obtain ⟨r, hr, hstands⟩ := exists_standsFor hn
      rw [children_of_node? hn]
      rw [holdsAttempts, hn, Option.any_some, hstands.info] at hp
      refine pairwise_of_refers hstands.children (fun b c r s hb hc hrs => ?_) ((hlaid r hr).follow hp).apart
      rw [(range_of_getElem?_nodes hb).2, (range_of_getElem?_nodes hc).1]
      exact hrs
  · obtain ⟨node, r, s, hs, hr, hget, hn, hstands⟩ := exists_parts_of_mem_children hc
    rw [holdsAttempts, hn, Option.any_some, hstands.info] at hattempts
    rw [keepsParts, hn, Option.any_some, hstands.info] at hkeeps
    rcases Matcher.isPattern_or_isClosed hg hr hattempts with hpattern | hclosed
    · exact absurd (by simp [MatchInfo.keepsParts, hpattern]) hkeeps
    · exact closed_of_isClosed hget (hclosed s hs)

/-- **Captures.** Every tree lists the captures of a node under a name once each and in ascending order, which is the
order in which a search with a stack finds them. The tree of a document lists them in the order in which they
start. -/
theorem captures_inOrder {t : MatchTree} (h : t.IsTree) (a : NodeId) (name : String) :
    (∀ x, x ∈ t.captures a name ↔ t.IsCapture a name x) ∧
      ((t.captures a name).Pairwise fun x y => x.index < y.index) ∧
      t.Finds name (t.liveChildren a) (t.captures a name) ∧
        ∀ (E : Engine) (g : Grammar) (c : CompiledGrammar) (d : Document) (limit : Nat),
          g.compile E = .ok c → t = Matcher.tree ⟨c, d, limit⟩ →
            (t.captures a name).Pairwise fun x y => t.start x ≤ t.start y := by
  refine ⟨fun x => h.isPreorder.mem_captures_iff, h.isPreorder.pairwise_captures a name,
    h.isPreorder.finds_captures a name, ?_⟩
  intro E g c d limit hg ht
  have hordered : t.Ordered := ht ▸ ordered_tree (m := ⟨c, d, limit⟩) hg
  exact hordered.pairwise_captures a name

/-- Calls with arguments that may be calls. -/
def callGrammar : Grammar where
  patterns := [.named "Call" ["f;", "f(<arg>[, <arg>...]);"]]
  patternRepository := [("arg", .named "Argument" ["f(<arg>)", "x"])]

/-- A call that is not closed. -/
def openCall : Document :=
  .ofString "f(x, f(x)"

theorem captures_inOrder_openCall : ∃ c, callGrammar.compile .standard = .ok c ∧
    -- of the two alternatives the second one came further
    (Matcher.tree ⟨c, openCall, 512⟩).holdsAttempts ⟨2⟩ ∧
    (Matcher.tree ⟨c, openCall, 512⟩).bestAttempt ⟨2⟩ = some ⟨4⟩ ∧
    (Matcher.tree ⟨c, openCall, 512⟩).captures ⟨2⟩ "arg" = [⟨6⟩, ⟨10⟩] ∧
    (Matcher.tree ⟨c, openCall, 512⟩).IsCapture ⟨2⟩ "arg" ⟨10⟩ ∧
    -- an argument keeps its own arguments
    (Matcher.tree ⟨c, openCall, 512⟩).name? ⟨13⟩ = some "arg" ∧
    ¬ (Matcher.tree ⟨c, openCall, 512⟩).IsCapture ⟨2⟩ "arg" ⟨13⟩ ∧
    (Matcher.tree ⟨c, openCall, 512⟩).start ⟨6⟩ ≤ (Matcher.tree ⟨c, openCall, 512⟩).start ⟨10⟩ := by
  have heval : ((callGrammar.compile .standard).toOption.map fun c =>
      ((Matcher.tree ⟨c, openCall, 512⟩).holdsAttempts ⟨2⟩, (Matcher.tree ⟨c, openCall, 512⟩).bestAttempt ⟨2⟩,
        (Matcher.tree ⟨c, openCall, 512⟩).captures ⟨2⟩ "arg", (Matcher.tree ⟨c, openCall, 512⟩).name? ⟨13⟩)) =
      some (true, some ⟨4⟩, [⟨6⟩, ⟨10⟩], some "arg") := by
    decide +kernel
  rcases hc : callGrammar.compile .standard with e | c
  · rw [hc] at heval
    cases heval
  rw [hc] at heval
  simp only [Except.toOption, Option.map_some, Option.some.injEq, Prod.mk.injEq] at heval
  obtain ⟨hattempts, hbest, hcaptures, hname⟩ := heval
  obtain ⟨hmem, -, -, hdocument⟩ :=
    captures_inOrder (.ofMatch (Matcher.matchDocument ⟨c, openCall, 512⟩).value) ⟨2⟩ "arg"
  have hstarts := hdocument .standard callGrammar c openCall 512 hc rfl
  rw [show (ofMatch _).captures ⟨2⟩ "arg" = _ from hcaptures] at hmem hstarts
  refine ⟨c, rfl, hattempts, hbest, hcaptures, (hmem ⟨10⟩).mp (by decide), hname, fun hx => ?_, ?_⟩
  · exact absurd ((hmem ⟨13⟩).mpr hx) (by decide)
  · exact List.rel_of_pairwise_cons hstarts (by decide)

end MatchTree

end ShaderAssist

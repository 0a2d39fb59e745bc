import ShaderAssist.Proofs.Match.Geometry

/-!
# Derivations

A matched node is a derivation of its item: it has the shape that the item asks for (`Shape`), and its
matched children are derivations of the items that its item refers to (`Derives`). A sequence has a group
of children for every element, a pattern has the first of its alternatives that matches, a scope stands
between its delimiters, and only a name is put on a node that belongs to another item.

All matched nodes of a match are derivations (`derives_of_mem_nodes`).
-/

namespace ShaderAssist

/-- Whether an element of a sequence may stand so many times. -/
def Multiplicity.Admits : Multiplicity → Nat → Prop
  | .one, n => n = 1
  | .optional, n => n ≤ 1
  | .many, _ => True

/-- What a node for an item stands for. -/
def Item.origin : Item → Origin
  | .alternation p _ => .pattern p
  | .scope s .. => .scope s
  | .grammar _ => .grammar
  | _ => .item

namespace Matcher

variable {m : Matcher} {attempt : Attempt} {id : ItemId} {o : Nat} {item : Item} {r : Match}

/-! ### The shape of a matched node -/

/-- A node carries its item and no name. A name is put on a node that belongs to another item. -/
def Labelled (id : ItemId) (r : Match) : Item → Prop
  | .named .. => True
  | item => r.info.item = some id ∧ r.info.origin = item.origin ∧ r.info.name = none

/-- A node without children that covers what `find` finds where the node starts. -/
def Reads (m : Matcher) (find : Slice → Option Nat) (r : Match) : Prop :=
  r.children = [] ∧
    ∃ s n, m.document.sliceAt r.start = some s ∧ find s = some n ∧ r.stop = r.start + n

/-- The shape that an item asks for in a matched node, with `attempt` and `Derived` for the items it
refers to. -/
def Shape (m : Matcher) (attempt : Attempt) (Derived : ItemId → Match → Prop) (r : Match) :
    Item → Prop
  | .blank _ => r.children = [] ∧ r.start < r.stop ∧ m.document.IsTrivia r.start r.stop
  | .text keyword _ => m.Reads keyword.matchLength? r
  | .token _ _ finder _ => m.Reads finder.matchLength? r
  | .sequence elements =>
    r.children ≠ [] ∧ ∃ groups : List (List Match), r.children = groups.flatten ∧
      List.Forall₂ (fun e group => e.multiplicity.Admits group.length ∧
        ∀ c ∈ group, Derived e.item c) elements groups
  | .alternation _ alternatives =>
    -- the earlier alternatives do not match at the same offset and depth
    ∃ before alternative after o, alternatives = before ++ alternative :: after ∧
      r.children = [(attempt alternative o).value] ∧
      Derived alternative (attempt alternative o).value ∧
      ∀ b ∈ before, ¬ (attempt b o).value.isMatched
  | .named name inner => ∃ c, Derived inner c ∧ r = c.withName name
  | .scope _ opening closing body =>
    ∃ first between last, r.children = first :: (between ++ [last]) ∧ Derived opening first ∧
      Derived closing last ∧
      ∀ c ∈ between, c.info.isSkippedLine ∨ ∃ p ∈ body, Derived p c
  | .grammar body => ∀ c ∈ r.children, ∃ p ∈ body, Derived p c

/-- **Derivations** of an item with at most `depth` items inside each other. -/
def Derives (m : Matcher) : Nat → ItemId → Match → Prop
  | 0, _, _ => False
  | depth + 1, id, r => r.isMatched ∧ ∃ item, m.grammar.item? id = some item ∧ Labelled id r item ∧
      m.Shape (m.matchAt depth) (m.Derives depth) r item

/-! ### What is kept of a run -/

section Derived
variable {Derived : ItemId → Match → Prop} (ha : m.Sound attempt)
  (hd : ∀ id o, m.document.IsBoundary o → (attempt id o).value.isMatched →
    Derived id (attempt id o).value)
include ha hd

/-- The results of a complete sequence, in groups by element. -/
theorem ElementsRun.exists_groups {es : List SequenceElement} {rs : List Match} {b : Bool}
    (h : ElementsRun attempt es o rs b) (ho : m.document.IsBoundary o) (hb : b = true) :
    ∃ groups : List (List Match), rs = groups.flatten ∧
      List.Forall₂ (fun e group => e.multiplicity.Admits group.length ∧
        ∀ c ∈ group, Derived e.item c) es groups := by
  induction h with
  | done => exact ⟨[], rfl, .nil⟩
  | failed _ => cases hb
  | @left item k es o rs b hk _ _ ih =>
    obtain ⟨groups, rfl, hg⟩ := ih ho hb
    refine ⟨[] :: groups, rfl, .cons ⟨?_, by simp⟩ hg⟩
    cases k with
    | one => exact absurd rfl hk
    | optional => exact Nat.zero_le 1
    | many => trivial
  | @passed item k es o rs b hm _ _ ih =>
    obtain ⟨groups, rfl, hg⟩ := ih (ha item o ho).stop hb
    refine ⟨[(attempt item o).value] :: groups, rfl, .cons ⟨?_, ?_⟩ hg⟩
    · cases k with
      | one => rfl
      | optional => exact le_rfl
      | many => trivial
    · intro c hc
      rw [List.mem_singleton.mp hc]
      exact hd item o ho hm
  | @again item es o rs b hm _ _ ih =>
    -- one more match in the group of the element that is tried again
    obtain ⟨groups, rfl, hg⟩ := ih (ha item o ho).stop hb
    obtain ⟨group, groups, ⟨-, hgroup⟩, hrest, rfl⟩ := List.forall₂_cons_left_iff.mp hg
    refine ⟨((attempt item o).value :: group) :: groups, rfl, .cons ⟨trivial, ?_⟩ hrest⟩
    intro c hc
    rcases List.mem_cons.mp hc with rfl | hc
    · exact hd item o ho hm
    · exact hgroup c hc

/-- The pieces of a content, and what stands behind them. -/
theorem ContentRun.exists_between {body : List ItemId} {Last : Nat → List Match → Prop}
    {Goes : Nat → Prop} {rs : List Match} {b : Bool}
    (h : ContentRun m attempt body Last Goes o rs b) (ho : m.document.IsBoundary o) :
    ∃ between last, rs = between ++ last ∧
      (∀ c ∈ between, c.info.isSkippedLine ∨ ∃ p ∈ body, Derived p c) ∧
      if b then ∃ a, m.document.IsBoundary a ∧ Last a last else last = [] := by
  induction h with
  | @last o rs hl => exact ⟨[], rs, rfl, by simp, _, (passes_skip ho true).isBoundary_right, hl⟩
  | @item o r rs b hf _ ih =>
    have hc := passes_skip ho true
    obtain ⟨-, -, hp⟩ := hf.advances ha hc
    obtain ⟨between, last, rfl, hbetween, hlast⟩ := ih hp.stop
    refine ⟨r :: between, last, rfl, ?_, hlast⟩
    obtain ⟨before, a, after, rfl, -, hadv, rfl⟩ := hf
    have hmatched := (advances_iff.mp hadv).1
    intro c hmem
    rcases List.mem_cons.mp hmem with rfl | hmem
    · exact Or.inr ⟨a, by simp, hd a _ hc.isBoundary_right hmatched⟩
    · exact hbetween c hmem
  | @line o next line rs b _ _ hs _ ih =>
    have hk := ha.skippedLine (passes_skip ho true).isBoundary_right hs
    obtain ⟨-, hn⟩ := hk.leads _ rfl
    obtain ⟨between, last, rfl, hbetween, hlast⟩ := ih hn.isBoundary_right
    refine ⟨line :: between, last, rfl, ?_, hlast⟩
    intro c hmem
    rcases List.mem_cons.mp hmem with rfl | hmem
    · exact Or.inl hk.isSkippedLine
    · exact hbetween c hmem
  | @lastLine o line _ _ hs =>
    have hk := ha.skippedLine (passes_skip ho true).isBoundary_right hs
    refine ⟨[line], [], rfl, ?_, rfl⟩
    intro c hmem
    rw [List.mem_singleton.mp hmem]
    exact Or.inl hk.isSkippedLine

/-! ### Matched nodes are derivations -/

omit ha hd in
theorem reads_word {find : Slice → Option Nat} {c : Bool} {n : Nat} (id : ItemId)
    (hn : (m.document.sliceAt (m.skip o c)).bind find = some n) :
    m.Reads find (.leaf id .matched (m.skip o c) (m.skip o c + n)) := by
  obtain ⟨s, hs, hn⟩ := Option.bind_eq_some_iff.mp hn
  exact ⟨rfl, s, n, hs, hn, rfl⟩

/-- **The outcome of an item that matched has the shape that the item asks for.** -/
theorem Outcome.shape (ho : m.document.IsBoundary o) (h : Outcome m attempt id o item r)
    (hr : r.isMatched) :
    Labelled id r item ∧ m.Shape attempt Derived r item := by
  have hc := (passes_skip ho true).isBoundary_right
  cases h with
  | @blank c hlt => exact ⟨⟨rfl, rfl, rfl⟩, rfl, hlt, (passes_skip ho c).isTrivia⟩
  | noBlank | noWord | emptySequence | noAlternative | noOpening =>
    exact absurd hr Bool.false_ne_true
  | word hw hn =>
    rcases Item.word?_eq_some hw with ⟨keyword, rfl, rfl⟩ | ⟨kind, source, program, rfl, rfl⟩
    · exact ⟨⟨rfl, rfl, rfl⟩, reads_word id hn⟩
    · exact ⟨⟨rfl, rfl, rfl⟩, reads_word id hn⟩
  | sequence hrun hne =>
    rw [isMatched_kindOf] at hr
    exact ⟨⟨rfl, rfl, rfl⟩, hne, hrun.exists_groups ha hd ho hr⟩
  | alternative hf =>
    obtain ⟨before, a, after, rfl, hbefore, hm, rfl⟩ := hf
    exact ⟨⟨rfl, rfl, rfl⟩, before, a, after, o, rfl, rfl, hd a o ho hm, hbefore⟩
  | @named name inner =>
    rw [Match.isMatched_withName] at hr
    exact ⟨trivial, _, hd inner o ho hr, rfl⟩
  | @scope s opening closing body rs b hm hrun =>
    rw [Match.isMatched_withOrigin, isMatched_kindOf] at hr
    subst hr
    obtain ⟨between, last, rfl, hbetween, a, hab, -, hlast, rfl⟩ :=
      ContentRun.exists_between ha hd hrun (ha opening _ hc).stop
    exact ⟨⟨rfl, rfl, rfl⟩, _, between, _, rfl, hd opening _ hc hm, hd closing a hab hlast, hbetween⟩
  | @grammar body rs b hrun =>
    obtain ⟨between, last, rfl, hbetween, hlast⟩ := ContentRun.exists_between ha hd hrun ho
    obtain rfl : last = [] := by
      cases b with
      | true => obtain ⟨-, -, -, hlast⟩ := hlast; exact hlast
      | false => exact hlast
    rw [List.append_nil] at hr ⊢
    refine ⟨⟨rfl, rfl, rfl⟩, fun c hmem => ?_⟩
    exact (hbetween c hmem).resolve_left ((isMatched_documentNode m id o between).mp hr c hmem)

end Derived

/-- **Attempts that match are derivations.** -/
theorem derives_matchAt (m : Matcher) : ∀ (depth : Nat) (id : ItemId) (o : Nat),
    m.document.IsBoundary o → (m.matchAt depth id o).value.isMatched →
      m.Derives depth id (m.matchAt depth id o).value
  | 0, id, o, ho, hr => by
    rw [matchAt_zero ho] at hr
    exact absurd hr Bool.false_ne_true
  | depth + 1, id, o, ho, hr => by
    rcases matchAt_cases ho (depth + 1) id with hleaf | ⟨n, item, hn, hitem, hout⟩
    · rw [hleaf] at hr
      exact absurd hr Bool.false_ne_true
    · obtain rfl : depth = n := Nat.succ.inj hn
      exact ⟨hr, item, hitem, hout.shape (sound_matchAt m depth) (derives_matchAt m depth) ho hr⟩

/-- **All matched nodes are derivations.** -/
theorem derives_of_mem_nodes (depth : Nat) (id : ItemId) (o : Nat) {s : Match}
    (hs : s ∈ (m.matchAt depth id o).value.nodes) (hm : s.isMatched) :
    ∃ n ≤ depth, ∃ id, m.Derives n id s := by
  by_cases ho : m.document.IsBoundary o
  · obtain ⟨n, hn, hp⟩ := exists_piece_of_mem_nodes depth id ho s hs
    cases hp with
    | tried id ho => exact ⟨n, hn, id, derives_matchAt m n id _ ho hm⟩
    | line ho _ hline =>
      have hk := (sound_matchAt m n).skippedLine ho hline
      rw [hk.line_eq] at hm
      exact absurd hm Bool.false_ne_true
  · rw [matchAt_of_not_isBoundary ho] at hs
    rcases Match.mem_nodes.mp hs with rfl | ⟨c, hc, -⟩
    · exact absurd hm Bool.false_ne_true
    · simp at hc

/-! ### Whole documents -/

/-- If a node stands for a whole document, it is matched if and only if no line was skipped. -/
def Accounted (r : Match) : Prop :=
  r.info.origin = .grammar → (r.isMatched ↔ ∀ c ∈ r.children, ¬ c.info.isSkippedLine)

theorem Outcome.accounted (hacc : ∀ id, Accounted (attempt id o).value)
    (h : Outcome m attempt id o item r) : Accounted r := by
  cases h with
  | blank | noBlank | word | noWord | sequence | emptySequence => intro h; cases h
  | alternative | noAlternative | noOpening | scope => intro h; cases h
  | @named name inner =>
    intro h
    rw [Match.isMatched_withName, Match.children_withName]
    refine hacc inner ?_
    rw [← h]
    rcases (attempt inner o).value
    rfl
  | @grammar body rs => exact fun _ => isMatched_documentNode m id o rs

theorem accounted_matchAt (m : Matcher) : ∀ (depth : Nat) (id : ItemId) (o : Nat),
    Accounted (m.matchAt depth id o).value
  | depth, id, o => by
    by_cases ho : m.document.IsBoundary o
    · rcases matchAt_cases ho depth id with hleaf | ⟨n, item, rfl, -, hout⟩
      · rw [hleaf]; intro h; cases h
      · exact hout.accounted fun inner => accounted_matchAt m n inner o
    · rw [matchAt_of_not_isBoundary ho]; intro h; cases h

theorem accounted_of_mem_nodes (depth : Nat) (id : ItemId) (o : Nat) {s : Match}
    (hs : s ∈ (m.matchAt depth id o).value.nodes) : Accounted s := by
  by_cases ho : m.document.IsBoundary o
  · obtain ⟨n, -, hp⟩ := exists_piece_of_mem_nodes depth id ho s hs
    cases hp with
    | tried id ho => exact accounted_matchAt m n id _
    | line ho _ hline =>
      rw [((sound_matchAt m n).skippedLine ho hline).line_eq]
      intro h; cases h
  · rw [matchAt_of_not_isBoundary ho] at hs
    rcases Match.mem_nodes.mp hs with rfl | ⟨c, hc, -⟩
    · intro h; cases h
    · simp at hc

/-- A whole document is matched if it was tried at all and no line was skipped. -/
theorem isMatched_matchAt_grammar {body : List ItemId}
    (hitem : m.grammar.item? id = some (.grammar body)) (depth : Nat) (o : Nat) :
    (m.matchAt depth id o).value.isMatched ↔ 1 ≤ depth ∧ m.document.IsBoundary o ∧
      ∀ c ∈ (m.matchAt depth id o).value.children, ¬ c.info.isSkippedLine := by
  by_cases ho : m.document.IsBoundary o
  · cases depth with
    | zero => simp [matchAt_zero ho, Match.isMatched_iff]
    | succ depth =>
      have hout := outcome_matchStep (sound_matchAt m depth) ho id (.grammar body)
      obtain ⟨rs, -, -, hr⟩ := hout.exists_linesRun
      rw [matchAt_succ ho, hitem]
      dsimp only
      rw [hr, isMatched_documentNode]
      exact ⟨fun h => ⟨Nat.le_add_left 1 depth, ho, h⟩, fun h => h.2.2⟩
  · simp [matchAt_of_not_isBoundary ho, Match.isMatched_iff, ho]

/-- A name is put on the result of the inner item, which stays as it is. -/
theorem matchAt_named {name : String} {inner : ItemId}
    (hitem : m.grammar.item? id = some (.named name inner)) (depth : Nat)
    (ho : m.document.IsBoundary o) :
    (m.matchAt (depth + 1) id o).value = (m.matchAt depth inner o).value.withName name := by
  rw [matchAt_succ ho, hitem]
  rfl

end Matcher

/-- **Matched nodes are derivations of the grammar.** A name only goes on what another item gave, and a
whole document is matched if and only if it was tried and no line of it was skipped. -/
theorem derives_matchItem (m : Matcher) (id : ItemId) (o : Nat) :
    (∀ s ∈ (m.matchItem id o).value.nodes,
      (s.isMatched → ∃ depth ≤ m.depthLimit, ∃ id, m.Derives depth id s) ∧
      (s.info.origin = .grammar →
        (s.isMatched ↔ ∀ c ∈ s.children, ¬ c.info.isSkippedLine))) ∧
    ((m.matchItem id o).value.isMatched → m.Derives m.depthLimit id (m.matchItem id o).value) ∧
    (∀ name inner, m.grammar.item? id = some (.named name inner) → 1 ≤ m.depthLimit →
      m.document.IsBoundary o →
      (m.matchItem id o).value = (m.matchAt (m.depthLimit - 1) inner o).value.withName name) ∧
    ∀ body, m.grammar.item? id = some (.grammar body) →
      ((m.matchItem id o).value.isMatched ↔ 1 ≤ m.depthLimit ∧ m.document.IsBoundary o ∧
        ∀ c ∈ (m.matchItem id o).value.children, ¬ c.info.isSkippedLine) := by
  refine ⟨fun s hs => ⟨?_, ?_⟩, ?_, ?_, ?_⟩
  · exact Matcher.derives_of_mem_nodes m.depthLimit id o hs
  · exact Matcher.accounted_of_mem_nodes m.depthLimit id o hs
  · intro hm
    by_cases ho : m.document.IsBoundary o
    · exact Matcher.derives_matchAt m m.depthLimit id o ho hm
    · rw [Matcher.matchItem, Matcher.matchAt_of_not_isBoundary ho] at hm
      exact absurd hm Bool.false_ne_true
  · intro name inner hitem hlimit ho
    obtain ⟨n, hn⟩ := Nat.exists_eq_add_of_le' hlimit
    rw [Matcher.matchItem, hn, Nat.add_sub_cancel]
    exact Matcher.matchAt_named hitem n ho
  · intro body hitem
    exact Matcher.isMatched_matchAt_grammar hitem m.depthLimit o

/-- A document that was not tried is not matched, although no line was skipped: where the depth is
limited to nothing, and inside a character. -/
theorem not_isMatched_of_not_tried : ∃ c, blockGrammar.compile .standard = .ok c ∧
    ¬ ((Matcher.matchItem ⟨c, .ofString "", 0⟩ CompiledGrammar.root 0).value.isMatched ↔
      ∀ r ∈ (Matcher.matchItem ⟨c, .ofString "", 0⟩ CompiledGrammar.root 0).value.children,
        ¬ r.info.isSkippedLine) ∧
    ¬ ((Matcher.matchItem ⟨c, .ofString "é", 1⟩ CompiledGrammar.root 1).value.isMatched ↔
      ∀ r ∈ (Matcher.matchItem ⟨c, .ofString "é", 1⟩ CompiledGrammar.root 1).value.children,
        ¬ r.info.isSkippedLine) := by
  obtain ⟨c, hc⟩ := exists_compile_blockGrammar
  refine ⟨c, hc, fun h => ?_, fun h => ?_⟩
  · rw [Matcher.matchItem, Matcher.matchAt_zero (Document.restAt_zero _).isBoundary] at h
    exact absurd (h.mpr (by simp)) Bool.false_ne_true
  · have hinside : ¬ (Document.ofString "é").IsBoundary 1 := by
      rw [← Document.isSome_sliceAt_iff]
      decide
    rw [Matcher.matchItem, Matcher.matchAt_of_not_isBoundary hinside] at h
    exact absurd (h.mpr (by simp)) Bool.false_ne_true

end ShaderAssist

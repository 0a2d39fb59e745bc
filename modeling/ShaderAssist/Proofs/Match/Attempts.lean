import ShaderAssist.Proofs.Grammar.Faithful
import ShaderAssist.Proofs.Match.SkippedLines

/-!
# Nodes that hold attempts

The nodes that hold attempts are the patterns without a matching alternative (`isPattern_of_mem_nodes`) and the
skipped lines. The content of a scope or of a document of a compiled grammar consists of patterns
(`exists_alternation_of_mem_body`), so the attempts on a skipped line are patterns, unless they were cut off by the
limit of the depth and have nothing below them (`isClosed_of_mem_children`).
-/

namespace ShaderAssist

/-! ### The parent of a node -/

mutual

/-- A node of a match is the match itself or a child of one of its nodes. -/
theorem Match.exists_parent_of_mem_nodes : ∀ {r s : Match}, s ∈ r.nodes → s = r ∨ ∃ p ∈ r.nodes, s ∈ p.children
  | .node info children, s, hs => by
    rw [Match.nodes] at hs ⊢
    rcases List.mem_cons.mp hs with rfl | hs
    · exact Or.inl rfl
    · refine Or.inr ?_
      rcases exists_parent_of_mem_nodesAll hs with hmem | ⟨p, hp, hsp⟩
      · exact ⟨.node info children, List.mem_cons_self, hmem⟩
      · exact ⟨p, List.mem_cons_of_mem _ hp, hsp⟩

theorem exists_parent_of_mem_nodesAll : ∀ {ms : List Match} {s : Match}, s ∈ nodesAll ms →
    s ∈ ms ∨ ∃ p ∈ nodesAll ms, s ∈ p.children
  | [], s, hs => by
    rw [nodesAll] at hs
    cases hs
  | m :: ms, s, hs => by
    rw [nodesAll] at hs ⊢
    rcases List.mem_append.mp hs with hs | hs
    · rcases Match.exists_parent_of_mem_nodes hs with rfl | ⟨p, hp, hsp⟩
      · exact Or.inl List.mem_cons_self
      · exact Or.inr ⟨p, List.mem_append_left _ hp, hsp⟩
    · rcases exists_parent_of_mem_nodesAll hs with hmem | ⟨p, hp, hsp⟩
      · exact Or.inl (List.mem_cons_of_mem m hmem)
      · exact Or.inr ⟨p, List.mem_append_right _ hp, hsp⟩

end

/-! ### What contents consist of -/

/-- The item of a pattern is an alternation. -/
theorem Faithful.exists_alternation {E : Engine} {g : Grammar} {L : Layout} (h : Faithful E g L)
    {step : Nat → PlaceStep} {place : Place} {patterns : List PatternDef} {body : List ItemId} {r : ItemId}
    (hreached : ∀ d ∈ placed step place patterns, Reached g d)
    (hbody : List.Forall₂ L.Has (placed step place patterns) body) (hr : r ∈ body) :
    ∃ pattern alternatives, L.item? r = some (.alternation pattern alternatives) := by
  obtain ⟨d, hd, hhas⟩ := Layout.exists_of_forall₂ hbody r hr
  have hcompiles := h.compiles d r (hreached d hd) hhas
  obtain ⟨i, p, -, rfl⟩ := mem_placed.mp hd
  obtain ⟨-, pattern, alternatives, hitem, -⟩ := hcompiles
  exact ⟨pattern, alternatives, hitem⟩

/-- **Contents consist of patterns.** -/
theorem exists_alternation_of_mem_body {E : Engine} {g : Grammar} {c : CompiledGrammar}
    (hg : g.compile E = .ok c) {id r : ItemId} {item : Item} (hid : c.item? id = some item) (hr : r ∈ item.body) :
    ∃ pattern alternatives, c.item? r = some (.alternation pattern alternatives) := by
  obtain ⟨b, hb, rfl⟩ := exists_complete_of_compile hg
  have hf := hb.faithful
  cases item with
  | scope s opening closing body =>
    obtain ⟨d, hd, hhas⟩ := (hf.defined id).mp ⟨_, hid, rfl⟩
    have hcompiles := hf.compiles d id hd hhas
    cases d with
    | pattern place p =>
      obtain ⟨-, pattern, alternatives, hitem, -⟩ := hcompiles
      cases hid.symm.trans hitem
    | scope place definition =>
      obtain ⟨-, s', opening', closing', body', hitem, -, -, -, hall⟩ := hcompiles
      obtain ⟨-, -, -, rfl⟩ := Item.scope.inj (Option.some.inj (hid.symm.trans hitem))
      exact hf.exists_alternation (fun d' hd' => .step hd (.body hd')) hall hr
  | grammar body =>
    obtain rfl := (hf.root id).mp ⟨body, hid⟩
    exact hf.exists_alternation (fun d hd => .root hd) (hf.body body hid) hr
  | _ => cases hr

/-- A node without a name that is a pattern or has nothing below it. -/
def Match.IsClosed (r : Match) : Prop :=
  r.info.name = none ∧ (r.info.isPattern ∨ r.children = [])

namespace Matcher

variable {m : Matcher} {attempt : Attempt} {item : Item} {id : ItemId} {o : Nat} {r s u : Match}

theorem Outcome.isClosed {pattern : PatternId} {alternatives : List ItemId}
    (h : Outcome m attempt id o (.alternation pattern alternatives) r) : r.IsClosed := by
  cases h with
  | word hw | noWord hw => cases hw
  | alternative | noAlternative => exact ⟨rfl, Or.inl rfl⟩

theorem isClosed_matchAt {pattern : PatternId} {alternatives : List ItemId}
    (hitem : m.grammar.item? id = some (.alternation pattern alternatives)) (depth o : Nat) :
    (m.matchAt depth id o).value.IsClosed := by
  by_cases ho : m.document.IsBoundary o
  · rcases matchAt_cases ho depth id with hleaf | ⟨n, item, rfl, hitem', hout⟩
    · rw [hleaf]
      exact ⟨rfl, Or.inr rfl⟩
    · obtain rfl := Option.some.inj (hitem'.symm.trans hitem)
      exact hout.isClosed
  · rw [matchAt_of_not_isBoundary ho]
    exact ⟨rfl, Or.inr rfl⟩

/-! ### Where skipped lines stand -/

theorem ElementsRun.exists_attempt {es : List SequenceElement} {rs : List Match} {b : Bool}
    (h : ElementsRun attempt es o rs b) : ∀ r ∈ rs, ∃ id a, r = (attempt id a).value := by
  induction h with
  | done => simp
  | failed _ => exact fun r hr => ⟨_, _, List.mem_singleton.mp hr⟩
  | left _ _ _ ih => exact ih
  | passed _ _ _ ih | again _ _ _ ih => exact List.forall_mem_cons.mpr ⟨⟨_, _, rfl⟩, ih⟩

/-- Only scopes and documents have skipped lines, with `hinner` for an outcome that only gets a name. -/
theorem Outcome.hasContent (hattempt : ∀ inner a, (attempt inner a).value.info.isSkippedLine = false)
    (hinner : ∀ inner, u ∈ (attempt inner o).value.children → (attempt inner o).value.info.HasContent)
    (h : Outcome m attempt id o item r) (hu : u ∈ r.children) (hskipped : u.info.isSkippedLine) :
    r.info.HasContent := by
  -- the children of other nodes are results of attempts
  have htried : ∀ inner a, u ≠ (attempt inner a).value := by
    rintro inner a rfl
    rw [hattempt] at hskipped
    cases hskipped
  cases h with
  | blank | noBlank | word | noWord | emptySequence => cases hu
  | sequence hrun =>
    obtain ⟨inner, a, heq⟩ := hrun.exists_attempt u hu
    exact absurd heq (htried inner a)
  | alternative hr =>
    obtain ⟨-, inner, -, -, -, -, rfl⟩ := hr
    exact absurd (List.mem_singleton.mp hu) (htried inner o)
  | noAlternative =>
    obtain ⟨inner, -, heq⟩ := List.mem_map.mp hu
    exact absurd heq.symm (htried inner o)
  | @named name inner =>
    rw [Match.children_withName] at hu
    have hcontent := hinner inner hu
    cases hvalue : (attempt inner o).value
    rw [hvalue] at hcontent
    exact hcontent
  | noOpening | scope => exact Or.inl rfl
  | grammar => exact Or.inr rfl

theorem hasContent_matchAt (m : Matcher) : ∀ (depth : Nat) (id : ItemId) (o : Nat),
    u ∈ (m.matchAt depth id o).value.children → u.info.isSkippedLine →
      (m.matchAt depth id o).value.info.HasContent
  | depth, id, o, hu, hskipped => by
    by_cases ho : m.document.IsBoundary o
    · rcases matchAt_cases ho depth id with hleaf | ⟨n, item, rfl, -, hout⟩
      · rw [hleaf] at hu
        cases hu
      · exact hout.hasContent (isSkippedLine_matchAt m n)
          (fun inner hu => hasContent_matchAt m n inner o hu hskipped) hu hskipped
    · rw [matchAt_of_not_isBoundary ho] at hu
      cases hu

/-- **Every skipped line of a match** stands in the content of a scope or of a document. -/
theorem exists_skips_of_mem_nodes (depth : Nat) (id : ItemId) (ho : m.document.IsBoundary o)
    (hs : s ∈ (m.matchAt depth id o).value.nodes) (hskipped : s.info.isSkippedLine) :
    ∃ n id item kind back, m.grammar.item? id = some item ∧ m.Skips (m.matchAt n) item kind s back := by
  rcases Match.exists_parent_of_mem_nodes hs with rfl | ⟨p, hp, hsp⟩
  · rw [isSkippedLine_matchAt] at hskipped
    cases hskipped
  · obtain ⟨n, -, hpiece⟩ := exists_piece_of_mem_nodes depth id ho p hp
    cases hpiece with
    | @tried id o ho =>
      obtain ⟨k, -, id, item, -, hitem, -, hskips⟩ :=
        recovers_matchAt m n id ho (hasContent_matchAt m n id o hsp hskipped)
      obtain ⟨front, back, hchildren⟩ := List.append_of_mem hsp
      exact ⟨k, id, item, _, back, hitem, hskips front s back hchildren hskipped⟩
    | line ho _ hline =>
      -- on a skipped line stand only attempts
      rw [((sound_matchAt m n).skippedLine ho hline).line_eq, Match.children_withRange,
        Match.children_ofChildren] at hsp
      obtain ⟨a, -, rfl⟩ := List.mem_map.mp hsp
      rw [isSkippedLine_matchAt] at hskipped
      cases hskipped

/-- The attempts on a skipped line. -/
theorem isClosed_of_mem_children {E : Engine} {g : Grammar} (hg : g.compile E = .ok m.grammar) (depth : Nat)
    (id : ItemId) (ho : m.document.IsBoundary o) (hs : s ∈ (m.matchAt depth id o).value.nodes)
    (hskipped : s.info.isSkippedLine) : ∀ c ∈ s.children, c.IsClosed := by
  obtain ⟨n, id, item, kind, back, hitem, hskips⟩ := exists_skips_of_mem_nodes depth id ho hs hskipped
  intro c hc
  rw [hskips.attempts] at hc
  obtain ⟨r, hr, rfl⟩ := List.mem_map.mp hc
  obtain ⟨pattern, alternatives, hr⟩ := exists_alternation_of_mem_body hg hitem hr
  exact isClosed_matchAt hr n _

/-! ### Patterns without a matching alternative -/

theorem Outcome.isPattern (hinner : ∀ inner, (attempt inner o).value.info.kind = .unmatchedPattern →
      (attempt inner o).value.info.isPattern) (h : Outcome m attempt id o item r)
    (hr : r.info.kind = .unmatchedPattern) : r.info.isPattern := by
  cases h with
  | blank | noBlank | word | noWord | emptySequence | noOpening => cases hr
  | @sequence es rs b => cases b <;> cases hr
  | @scope s opening closing body rs b => cases b <;> cases hr
  | alternative | noAlternative => rfl
  | @named name inner =>
    have hpattern := hinner inner
    cases hvalue : (attempt inner o).value
    rw [hvalue] at hr hpattern
    exact hpattern hr
  | @grammar body rs b =>
    rw [Match.kind_withOrigin, Match.kind_withRange, Match.kind_ofChildren] at hr
    rcases kindOf_cases (!rs.any fun r => r.info.isSkippedLine) with hk | hk <;> cases hk.symm.trans hr

theorem isPattern_matchAt (m : Matcher) : ∀ (depth : Nat) (id : ItemId) {o : Nat}, m.document.IsBoundary o →
    (m.matchAt depth id o).value.info.kind = .unmatchedPattern → (m.matchAt depth id o).value.info.isPattern
  | depth, id, o, ho, hr => by
    rcases matchAt_cases ho depth id with hleaf | ⟨n, item, rfl, -, hout⟩
    · rw [hleaf] at hr
      cases hr
    · exact hout.isPattern (fun inner => isPattern_matchAt m n inner ho) hr

theorem isPattern_of_mem_nodes (depth : Nat) (id : ItemId) (ho : m.document.IsBoundary o)
    (hs : s ∈ (m.matchAt depth id o).value.nodes) (hkind : s.info.kind = .unmatchedPattern) :
    s.info.isPattern := by
  obtain ⟨n, -, hpiece⟩ := exists_piece_of_mem_nodes depth id ho s hs
  cases hpiece with
  | tried id ho => exact isPattern_matchAt m n id ho hkind
  | line ho _ hline =>
    rw [((sound_matchAt m n).skippedLine ho hline).line_eq] at hkind
    cases hkind

/-- **A node that holds attempts** is a pattern, or the attempts are closed. -/
theorem isPattern_or_isClosed {E : Engine} {g : Grammar} (hg : g.compile E = .ok m.grammar)
    (hs : s ∈ m.matchDocument.value.nodes) (hattempts : s.info.holdsAttempts) :
    s.info.isPattern ∨ ∀ c ∈ s.children, c.IsClosed := by
  have ho := m.document.restAt_zero.isBoundary
  unfold MatchInfo.holdsAttempts at hattempts
  rcases (Bool.or_eq_true _ _).mp hattempts with hkind | hkind
  · exact Or.inl (isPattern_of_mem_nodes _ _ ho hs (beq_iff_eq.mp hkind))
  · exact Or.inr (isClosed_of_mem_children hg _ _ ho hs hkind)

end Matcher

end ShaderAssist

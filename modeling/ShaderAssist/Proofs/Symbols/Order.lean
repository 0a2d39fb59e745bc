import ShaderAssist.Proofs.Match.Live
import ShaderAssist.Proofs.Symbols.Changes

/-!
# The order of collecting

The collectors run on the nodes that count, once each and in ascending order, so that only nodes that count
stand for symbols, and when a collector runs everything above its node and before it has been collected
(`ofMatched_runsInOrder`).
-/

namespace ShaderAssist

namespace Symbols

variable {m : MatchedDocument} {v : Vocabulary} {g : CompiledGrammar} {t : MatchTree} {node x y : NodeId}
  {c : Collector} {s s' : Symbols}

/-! ### The plan -/

/-- The collector that a grammar has for a node. -/
def collectorAt? (g : CompiledGrammar) (t : MatchTree) (x : NodeId) : Option Collector :=
  (t.node? x).bind fun n => g.collector? n.origin

theorem plan_eq (g : CompiledGrammar) (t : MatchTree) :
    plan g t = t.live.filterMap fun x => (collectorAt? g t x).map (x, ·) := by
  unfold plan
  congr 1
  funext x
  unfold collectorAt?
  cases t.node? x with
  | none => rfl
  | some n => cases h : g.collector? n.origin <;> simp [h]

theorem mem_plan_iff : (x, c) ∈ plan g t ↔ x ∈ t.live ∧ collectorAt? g t x = some c := by
  rw [plan_eq, List.mem_filterMap]
  constructor
  · rintro ⟨y, hy, heq⟩
    obtain ⟨c', hc', hxc⟩ := Option.map_eq_some_iff.mp heq
    obtain ⟨rfl, rfl⟩ := Prod.mk.inj hxc
    exact ⟨hy, hc'⟩
  · rintro ⟨hx, hc⟩
    exact ⟨x, hx, by rw [hc, Option.map_some]⟩

/-- The collectors come in ascending order of their nodes. -/
theorem pairwise_plan (h : t.IsPreorder) (g : CompiledGrammar) :
    (plan g t).Pairwise fun d e => d.1.index < e.1.index := by
  rw [plan_eq, List.pairwise_filterMap]
  refine h.pairwise_live.imp fun hxy d hd e he => ?_
  obtain ⟨_, -, rfl⟩ := Option.map_eq_some_iff.mp hd
  obtain ⟨_, -, rfl⟩ := Option.map_eq_some_iff.mp he
  exact hxy

/-- What has run is what comes before. -/
theorem mem_done_iff (h : t.IsPreorder) {done rest : List (NodeId × Collector)} {d e : NodeId × Collector}
    (hplan : plan g t = done ++ e :: rest) : d ∈ done ↔ d ∈ plan g t ∧ d.1.index < e.1.index := by
  have hsorted := pairwise_plan h g
  rw [hplan, List.pairwise_append, List.pairwise_cons] at hsorted
  obtain ⟨-, ⟨hlater, -⟩, hearlier⟩ := hsorted
  constructor
  · intro hd
    exact ⟨by rw [hplan]; exact List.mem_append_left _ hd, hearlier d hd e List.mem_cons_self⟩
  · rintro ⟨hd, hlt⟩
    rw [hplan, List.mem_append, List.mem_cons] at hd
    rcases hd with hd | rfl | hd
    · exact hd
    · exact absurd hlt (Nat.lt_irrefl _)
    · exact absurd hlt (Nat.lt_asymm (hlater d hd))

/-! ### Nodes that stand for symbols -/

/-- A collector makes no other node than its own stand for a symbol. -/
theorem Change.mem_states (hc : Change m v node c s s') {e : NodeId × Symbol} (he : e ∈ s'.states) :
    e ∈ s.states ∨ e.1 = node := by
  have hset : ∀ {y : Symbol}, e ∈ (node, y) :: s.states → e ∈ s.states ∨ e.1 = node := by
    intro y he
    rcases List.mem_cons.mp he with rfl | he
    · exact Or.inr rfl
    · exact Or.inl he
  have hprogram : (s.createProgram m v node).2.states = s.states := states_addProgram _ _ _ _
  cases hc with
  | shader name => exact hset he
  | subShader hk => exact hset he
  | pass hk => exact hset he
  | editShader k _ _ => exact Or.inl he
  | editSubShader k _ _ => exact Or.inl he
  | editPass k _ _ => exact Or.inl he
  | program =>
    refine hset (y := .global (s.createProgram m v node).1) ?_
    rw [← hprogram]
    exact he
  | includeBlock =>
    refine hset (y := .global (s.createProgram m v node).1) ?_
    rw [← hprogram]
    unfold Symbols.collectInclude at he
    dsimp only at he
    split at he <;> exact he
  | declare _ _ => exact Or.inl he
  | declareAt _ _ _ => exact hset he

/-- A node that stands for a symbol has been collected. -/
theorem exists_mem_of_mem_states (done : List (NodeId × Collector)) :
    ∀ e ∈ (after m v done).states, ∃ c, (e.1, c) ∈ done := by
  refine after_induction (P := fun done s => ∀ e ∈ s.states, ∃ c, (e.1, c) ∈ done) (by simp) ?_ ?_ done
  · intro done node c s _ hs e he
    obtain ⟨c', hc'⟩ := hs e he
    exact ⟨c', List.mem_append_left _ hc'⟩
  · intro done node c s s' hr hc hs e he
    rcases (change_of_collect? hr hc).mem_states he with he | rfl
    · obtain ⟨c', hc'⟩ := hs e he
      exact ⟨c', List.mem_append_left _ hc'⟩
    · exact ⟨c, List.mem_append_right _ List.mem_cons_self⟩

/-! ### Runs in order -/

/-- The collectors of a document run on the nodes that count and in order. -/
structure RunsInOrder (m : MatchedDocument) (v : Vocabulary) (g : CompiledGrammar) : Prop where
  /-- Among attempts the first one that came furthest counts. -/
  best : ∀ a c, m.tree.bestAttempt a = some c ↔ IsFirstMax m.tree.stop (m.tree.children a) c
  /-- What counts is met by a walk down from the root, -/
  walks : 0 < m.tree.size → m.tree.Walks [MatchTree.root] m.tree.live
  /-- which meets each node that counts once and in ascending order. -/
  plan_eq : plan g m.tree = (m.tree.ids.filter fun x => m.tree.IsLive x).filterMap fun x =>
    (collectorAt? g m.tree x).map (x, ·)
  ofMatched_eq : ofMatched m v g = after m v (plan g m.tree)
  /-- At any time only nodes that count and have been collected stand for symbols, -/
  states : ∀ done rest, plan g m.tree = done ++ rest → ∀ e ∈ (after m v done).states,
    m.tree.IsLive e.1 ∧ ∃ c, (e.1, c) ∈ done
  /-- and what counts above a node and before it has been collected when its turn comes. -/
  ready : ∀ done x c rest, plan g m.tree = done ++ (x, c) :: rest → ∀ y c', m.tree.IsLive y →
    collectorAt? g m.tree y = some c' → y ∈ m.tree.ancestors x ∨ y.index < x.index → (y, c') ∈ done

/-- **Collectors run in order**, on the nodes that count and on no others. -/
theorem ofMatched_runsInOrder (m : MatchedDocument) (v : Vocabulary) (g : CompiledGrammar)
    (hm : m.tree.IsTree) : RunsInOrder m v g := by
  have h := hm.isPreorder
  refine ⟨fun a c => MatchTree.bestAttempt_eq_some_iff, h.walks_live, ?_, rfl, ?_, ?_⟩
  · rw [plan_eq, h.live_eq_filter]
  · intro done rest hplan e he
    obtain ⟨c, hc⟩ := exists_mem_of_mem_states done e he
    have hmem : (e.1, c) ∈ plan g m.tree := by
      rw [hplan]
      exact List.mem_append_left _ hc
    exact ⟨h.mem_live_iff.mp (mem_plan_iff.mp hmem).1, c, hc⟩
  · intro done x c rest hplan y c' hy hc' hbefore
    have hlt : y.index < x.index :=
      hbefore.elim (MatchTree.index_lt_of_mem_ancestors h.parentsFirst) id
    exact (mem_done_iff h hplan).mpr ⟨mem_plan_iff.mpr ⟨h.mem_live_iff.mpr hy, hc'⟩, hlt⟩

/-- A skipped line on which three attempts were made, the last two of which came equally far, and a line
that matched. Each of them starts with a name. -/
def skippedLine : Match :=
  let attempt (kind : MatchKind) (start behindName stop : Nat) : Match :=
    .node ⟨none, .pattern ⟨0⟩, kind, start, stop, none⟩
      [.node ⟨none, .item, .matched, start, behindName, some "name"⟩ []]
  .node ⟨none, .grammar, .matched, 0, 5, none⟩
    [.node ⟨none, .item, .unmatchedText, 0, 3, none⟩
      [attempt .unmatched 0 1 2, attempt .unmatched 0 2 3, attempt .unmatched 0 3 3], attempt .matched 4 5 5]

theorem runsInOrder_skippedLine :
    let m : MatchedDocument := ⟨.ofString "abc\nd", .ofMatch skippedLine⟩
    let g : CompiledGrammar := ⟨none, #[], #[⟨none, none, some .shader, none⟩], #[]⟩
    m.tree.IsTree ∧ plan g m.tree = [(⟨4⟩, .shader), (⟨8⟩, .shader)] ∧
      (ofMatched m .builtin g).shaders.toList.map Shader.name = ["ab", "d"] ∧
      (ofMatched m .builtin g).states = [(⟨8⟩, .shader ⟨1⟩), (⟨4⟩, .shader ⟨0⟩)] ∧ RunsInOrder m .builtin g :=
  ⟨.ofMatch _, by decide, by decide +kernel, by decide +kernel, ofMatched_runsInOrder _ _ _ (.ofMatch _)⟩

end Symbols

end ShaderAssist

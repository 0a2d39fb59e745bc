import ShaderAssist.Proofs.Match.Outcomes
import ShaderAssist.Proofs.Match.Numbering

/-!
# Layout of a match

How a node and its children lie in the document (`Match.Laid`). The children of most nodes follow each
other with only blanks and comments in between. Those of a failed pattern and of a skipped line are
attempts at one and the same place, so they all start where the node does.

All nodes of a match are laid like this (`laid_matchAt`).
-/

namespace ShaderAssist

namespace Match

variable {d : Document} {r : Match} {rs : List Match} {o : Nat}

/-- How a node lies in a document. -/
structure Laid (d : Document) (r : Match) : Prop where
  start : d.IsBoundary r.start
  stop : d.IsBoundary r.stop
  le : r.start ≤ r.stop
  inside : ∀ c ∈ r.children, c.stop ≤ r.stop
  follow : ¬ r.info.holdsAttempts → Follow d r.start r.children
  attempts : r.info.holdsAttempts → ∀ c ∈ r.children, c.start = r.start ∧ c.start ≤ c.stop

theorem Laid.withOrigin (h : r.Laid d) (origin : Origin) : (r.withOrigin origin).Laid d := by
  cases r
  exact ⟨h.1, h.2, h.3, h.4, h.5, h.6⟩

theorem Laid.withName (h : r.Laid d) (name : String) : (r.withName name).Laid d := by
  cases r
  exact ⟨h.1, h.2, h.3, h.4, h.5, h.6⟩

/-- A node that is no collection of attempts. -/
theorem not_holdsAttempts (h : r.info.kind = .matched ∨ r.info.kind = .unmatched) :
    ¬ r.info.holdsAttempts := by
  rw [MatchInfo.holdsAttempts]
  rcases h with h | h <;> rw [h] <;> decide

theorem laid_leaf (id : ItemId) {kind : MatchKind} (hk : kind = .matched ∨ kind = .unmatched)
    {a b : Nat} (ha : d.IsBoundary a) (hb : d.IsBoundary b) (hle : a ≤ b) :
    (leaf id kind a b).Laid d :=
  ⟨ha, hb, hle, by simp, fun _ => trivial, fun h => absurd h (not_holdsAttempts hk)⟩

/-- A node over results in a row. -/
theorem laid_ofChildren (item : Option ItemId) {kind : MatchKind}
    (hk : kind = .matched ∨ kind = .unmatched) (ho : d.IsBoundary o) (hne : rs ≠ [])
    (h : Follow d o rs) : (ofChildren item kind o rs).Laid d := by
  have hp := placedAt_ofChildren item hk ho hne h
  refine ⟨hp.passes.isBoundary_right, hp.stop, hp.le, ?_, fun _ => ?_, fun ha => ?_⟩
  · intro c hc
    exact stop_le_furthest hc
  · rcases hk with rfl | rfl
    · obtain ⟨r, rs, rfl⟩ := List.exists_cons_of_ne_nil hne
      exact h.from_start
    · exact h
  · exact absurd ha (not_holdsAttempts hk)

/-- A node over attempts at one place. -/
theorem laid_attempts (item : Option ItemId) {kind : MatchKind}
    (hk : kind = .unmatchedPattern ∨ kind = .unmatchedText) (ho : d.IsBoundary o) {b : Nat}
    (hb : d.IsBoundary b) (hle : furthest o rs ≤ b) (h : ∀ c ∈ rs, c.start = o ∧ c.start ≤ c.stop) :
    ((ofChildren item kind o rs).withRange o b).Laid d := by
  refine ⟨ho, hb, le_trans (le_furthest rs o) hle, ?_, fun hn => ?_, fun _ => h⟩
  · intro c hc
    exact le_trans (stop_le_furthest hc) hle
  · exact absurd (by rcases hk with rfl | rfl <;> rfl) hn

end Match

namespace Matcher

variable {m : Matcher} {attempt : Attempt} {id : ItemId} {o : Nat} {item : Item} {r : Match}

/-- **The outcome of an item is laid** as it should be if the results of its attempts are. -/
theorem Outcome.laid (ha : m.Sound attempt)
    (hl : ∀ id o, m.document.IsBoundary o → (attempt id o).value.Laid m.document)
    (ho : m.document.IsBoundary o) (h : Outcome m attempt id o item r) : r.Laid m.document := by
  have hc := passes_skip ho true
  have hplaced := h.placedAt ha ho
  cases h with
  | blank | word =>
    exact Match.laid_leaf id (Or.inl rfl) hplaced.passes.isBoundary_right hplaced.stop hplaced.le
  | noBlank | noWord | emptySequence =>
    exact Match.laid_leaf id (Or.inr rfl) hplaced.passes.isBoundary_right hplaced.stop hplaced.le
  | sequence hrun hne =>
    exact Match.laid_ofChildren _ (kindOf_cases _) ho hne (hrun.follow ha ho)
  | alternative hr =>
    obtain ⟨-, a, -, -, -, -, rfl⟩ := hr
    refine (Match.laid_ofChildren _ (Or.inl rfl) ho (by simp) ?_).withOrigin _
    exact (ha a o ho).follow trivial
  | @noAlternative p items hn =>
    refine (Match.laid_attempts _ (Or.inl rfl) ho (ha.isBoundary_furthest ho items) le_rfl ?_).withOrigin
      (.pattern p)
    intro c hc
    have hp := ha.tries ho items hc
    obtain ⟨a, hmem, rfl⟩ := List.mem_map.mp hc
    exact ⟨hp.start_eq (hn a hmem), hp.le⟩
  | named => exact (hl _ o ho).withName _
  | @noOpening s opening =>
    refine (Match.laid_ofChildren _ (Or.inr rfl) ho (by simp) ?_).withOrigin _
    exact .of_passes hc ((ha opening _ hc.isBoundary_right).follow trivial)
  | @scope s opening _ _ _ _ hm hrun =>
    have hp := ha opening _ hc.isBoundary_right
    refine (Match.laid_ofChildren _ (kindOf_cases _) ho (by simp) ?_).withOrigin _
    exact .of_passes hc (hp.follow (RegionRun.follow ha hrun hp.stop))
  | @grammar body rs b hrun =>
    have hf := LinesRun.follow ha hrun ho
    refine Match.Laid.withOrigin (r := (Match.ofChildren _ _ o rs).withRange o m.document.size) ?_ _
    refine ⟨ho, m.document.restAt_size.isBoundary, ho.le_size, ?_, fun _ => hf, fun h => ?_⟩
    · intro c hc
      exact (hf.bounds c hc).2.2.le_size
    · exact absurd h (Match.not_holdsAttempts (kindOf_cases _))

/-- The attempts on a skipped line all start at the cursor: what matched there did not advance. -/
theorem start_of_noneOf (ha : m.Sound attempt) (ho : m.document.IsBoundary o) {body : List ItemId}
    (h : NoneOf (advances o) attempt body o) : ∀ c ∈ tries attempt body o, c.start = o := by
  intro c hc
  have hp := ha.tries ho body hc
  obtain ⟨a, hmem, rfl⟩ := List.mem_map.mp hc
  by_cases hm : (attempt a o).value.isMatched
  · have hstop : ¬ o < (attempt a o).value.stop := by
      intro hlt
      exact h a hmem (advances_iff.mpr ⟨hm, hlt⟩)
    have h1 := hp.passes.le
    have h2 := hp.le
    omega
  · exact hp.start_eq hm

theorem Piece.laid (ha : m.Sound attempt)
    (hl : ∀ id o, m.document.IsBoundary o → (attempt id o).value.Laid m.document)
    (h : Piece m attempt r) : r.Laid m.document := by
  cases h with
  | tried id ho => exact hl id _ ho
  | line ho hn hs =>
    have hk := ha.skippedLine ho hs
    rw [hk.line_eq]
    refine Match.laid_attempts none (Or.inr rfl) ho hk.stop hk.furthest_le fun c hc => ?_
    exact ⟨start_of_noneOf ha ho hn c hc, (ha.tries ho _ hc).le⟩

theorem laid_matchAt (m : Matcher) : ∀ (depth : Nat) (id : ItemId) (o : Nat),
    m.document.IsBoundary o → (m.matchAt depth id o).value.Laid m.document
  | 0, id, o, ho => by
    rw [matchAt_zero ho]
    exact Match.laid_leaf id (Or.inr rfl) ho ho le_rfl
  | depth + 1, id, o, ho => by
    rcases matchAt_cases ho (depth + 1) id with hleaf | ⟨n, item, hn, -, hout⟩
    · rw [hleaf]
      exact Match.laid_leaf id (Or.inr rfl) ho ho le_rfl
    · obtain rfl : depth = n := Nat.succ.inj hn
      exact hout.laid (sound_matchAt m depth) (laid_matchAt m depth) ho

/-- **All nodes of a match are laid** as they should be. -/
theorem laid_nodes (depth : Nat) (id : ItemId) (ho : m.document.IsBoundary o) :
    ∀ s ∈ (m.matchAt depth id o).value.nodes, s.Laid m.document := by
  intro s hs
  obtain ⟨n, -, hp⟩ := exists_piece_of_mem_nodes depth id ho s hs
  exact hp.laid (sound_matchAt m n) (laid_matchAt m n)

end Matcher

end ShaderAssist

import ShaderAssist.Proofs.Match.Simulation

/-!
# Termination of matching

The matching machine works off any list of calls, each with the result that it has on its own. On the way
the depth keeps to its limit and says how many items are under way, no cursor leaves the text, and every
step that enters an item or goes on inside one decreases a lexicographic measure: the depth that is left,
the distance to the end of the text, and what is left to try at one place (`measure`).
-/

namespace ShaderAssist

namespace Machine

open Relation (ReflTransGen)

variable {m : Matcher} {a b c c' z : Config}

/-- The depth that is left, and the rank of the innermost item. -/
def measure (m : Matcher) (c : Config) : ℕ ×ₗ ℕ ×ₗ ℕ :=
  toLex (m.depthLimit - c.depth, c.stage.rank m)

/-- **The measure decreases** with every step that begins or ends no call. -/
theorem Advances.measure_lt (h : Advances m c c') : Answers c c' ∨ measure m c' < measure m c := by
  cases h with
  | enters hlimit hdepth =>
    refine Or.inr (Prod.Lex.toLex_lt_toLex.mpr (Or.inl ?_))
    dsimp only
    omega
  | next hdepth hnext =>
    refine Or.inr (Prod.Lex.toLex_lt_toLex.mpr (Or.inr ⟨?_, hnext.rank_lt⟩))
    dsimp only
    rw [hdepth]
  | answers h => exact Or.inl h

/-- Between two items the innermost one is at the head of no loop. -/
theorem stage_ne_head (hc : c.control.active = 0) (k : Content) (cursor : Nat) :
    c.stage ≠ .head k cursor := by
  rw [stage_of_active hc]
  cases c.stack with
  | nil => intro h; cases h
  | cons f stack => intro h; cases h

/-- **A loop comes back to its head behind the place where it was.** -/
theorem Advances.head_lt (h : Advances m c c') (hc : Balanced m c) (hdepth : c'.depth = c.depth)
    (hloop : c.stage.inLoop) {k : Content} {cursor : Nat} (hhead : c'.stage = .head k cursor) :
    c.stage.cursor m < cursor := by
  cases h with
  | enters _ hd => omega
  | next _ hnext => exact hnext.head_lt hloop k cursor hhead
  | answers h =>
    rcases h with hidle | hidle | ⟨r, hret⟩
    · rw [stage_of_active (by rw [hidle]; rfl), hc.idle hidle] at hloop
      cases hloop
    · exact absurd hhead (stage_ne_head (by rw [hidle]; rfl) k cursor)
    · exact absurd hhead (stage_ne_head (by rw [hret]; rfl) k cursor)

/-! ### Working off calls -/

/-- The machine works off its calls one after the other. -/
theorem reaches_calls (m : Matcher) : ∀ (calls : List (ItemId × Nat)) (results : List Match),
    Reaches m ⟨0, .idle, [], calls, results⟩
      ⟨0, .idle, [], [], results ++ calls.map fun call => (m.matchItem call.1 call.2).value⟩
  | [], results => by
    rw [List.map_nil, List.append_nil]
  | (id, o) :: calls, results => by
    have hcall := simulates_matchAt m m.depthLimit 0 (Nat.zero_add _) id o [] calls results
    have hrest := reaches_calls m calls (results ++ [(m.matchItem id o).value])
    rw [List.append_assoc] at hrest
    refine .head (goes_answer rfl (Or.inl rfl) rfl rfl fun _ _ => rfl) (hcall.trans (.head ?_ hrest))
    exact goes_answer rfl (Or.inr (Or.inl rfl)) rfl rfl fun _ _ => rfl

/-- The machine has only one way to go, so it goes the way that advances. -/
theorem Reaches.of_runs (h : Reaches m a z) (hz : step m z = none) (hr : Runs m a b) :
    Reaches m a b ∧ Reaches m b z := by
  induction hr with
  | refl => exact ⟨.refl, h⟩
  | @tail b b' _ hstep ih =>
    obtain ⟨hab, hbz⟩ := ih
    rcases hbz.cases_head with rfl | ⟨e, hgoes, hez⟩
    · rw [hz] at hstep; cases hstep
    · obtain rfl : e = b' := Option.some.inj (hgoes.step.symm.trans hstep)
      exact ⟨hab.tail hgoes, hez⟩

/-- Every step of a machine that comes to a halt in steps that advance is one of them. -/
theorem Reaches.goes (h : Reaches m a z) (hz : step m z = none) (hstep : step m a = some b) :
    Goes m a b := by
  rcases h.cases_head with rfl | ⟨e, hgoes, -⟩
  · rw [hz] at hstep; cases hstep
  · obtain rfl : e = b := Option.some.inj (hgoes.step.symm.trans hstep)
    exact hgoes

theorem Reaches.inText (h : Reaches m a b) (ha : a.InText m) : b.InText m := by
  induction h with
  | refl => exact ha
  | tail _ hgoes ih => exact hgoes.inText ih

theorem Reaches.runs (h : Reaches m a b) : Runs m a b :=
  ReflTransGen.mono (fun _ _ hgoes => hgoes.step) a b h

end Machine

open Machine in
/-- **Matching terminates and keeps its depth.** A machine works off any calls, each with the result that
it has on its own. In every state on the way the counter keeps to its limit and says how many items are
under way, no cursor is past the end of the text, and a call returns over the same stack. Every step
begins or ends a call or decreases the measure, and a loop comes back to its head only behind the place
where it was. -/
theorem runs_calls (m : Matcher) (calls : List (ItemId × Nat)) :
    Runs m (.ofCalls calls)
      ⟨0, .idle, [], [], calls.map fun call => (m.matchItem call.1 call.2).value⟩ ∧
    step m ⟨0, .idle, [], [], calls.map fun call => (m.matchItem call.1 call.2).value⟩ = none ∧
    ∀ c, Runs m (.ofCalls calls) c →
      c.depth = c.stack.length + c.control.active ∧ c.depth ≤ m.depthLimit ∧ c.InText m ∧
      (∀ id o, c.control = .call id o → Runs m c
        { c with control := .ret (m.matchAt (m.depthLimit - c.depth) id o).value }) ∧
      ∀ c', step m c = some c' →
        (Answers c c' ∨ Machine.measure m c' < Machine.measure m c) ∧
        (c'.depth = c.depth → c.stage.inLoop → ∀ k cursor, c'.stage = .head k cursor →
          c.stage.cursor m < cursor) := by
  have hreaches := reaches_calls m calls []
  refine ⟨hreaches.runs, rfl, fun c hruns => ?_⟩
  have hbalanced := (balanced_ofCalls (m := m) calls).runs hruns
  obtain ⟨hfrom, hto⟩ := hreaches.of_runs rfl hruns
  have htext : (Config.ofCalls calls).InText m := ⟨le_rfl, fun f hf => by cases hf⟩
  refine ⟨hbalanced.depth, hbalanced.limit, hfrom.inText htext, ?_, ?_⟩
  · intro id o hcall
    have hsim := simulates_matchAt m (m.depthLimit - c.depth) c.depth
      (Nat.add_sub_of_le hbalanced.limit) id o c.stack c.calls c.results
    rw [← hcall] at hsim
    exact hsim.runs
  · intro c' hstep
    have hadv := (hto.goes rfl hstep).advances
    refine ⟨hadv.measure_lt, fun hdepth hloop k cursor hhead => ?_⟩
    exact hadv.head_lt hbalanced hdepth hloop hhead

end ShaderAssist

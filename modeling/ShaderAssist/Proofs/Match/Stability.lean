import ShaderAssist.Assistant
import ShaderAssist.Proofs.Grammar.Growth
import ShaderAssist.Proofs.Match.Calls

/-!
# Stability under the limit of the depth

The limit shows in a result only through attempts that were cut off, and each of them has an event. If no
attempt was cut off, a larger limit gives the same result (`matchAt_withLimit`): every attempt inside has
the same answer by induction on the depth, and nothing but these answers counts (`Follows.congr`).

So two limits that are never met give the same match tree, the same symbols and the same completions.
-/

namespace ShaderAssist

/-- No attempt was cut off at the limit of the depth. -/
def Traced.Uncut {α : Type} (t : Traced α) : Prop :=
  ∀ e ∈ t.events, e.isDepthLimit = false

namespace Matcher

/-- The matcher with another limit. -/
abbrev withLimit (m : Matcher) (limit : Nat) : Matcher :=
  { m with depthLimit := limit }

variable {m : Matcher} {o : Nat}

/-! ### What does not read the limit -/

section Limit
variable (m) (limit : Nat)

theorem skip_withLimit (o : Nat) (crossLine : Bool) :
    (m.withLimit limit).skip o crossLine = m.skip o crossLine := rfl

theorem skipLine_withLimit (o : Nat) (attempts : List Match) :
    (m.withLimit limit).skipLine o attempts = m.skipLine o attempts := rfl

theorem matchRegion_withLimit (attempt : Attempt) (closing : ItemId) (body : List ItemId) (o : Nat) :
    (m.withLimit limit).matchRegion attempt closing body o = m.matchRegion attempt closing body o := by
  induction h : m.document.size - o using Nat.strong_induction_on generalizing o with
  | _ n ih =>
  subst h
  rw [matchRegion.eq_1 m, matchRegion.eq_1 (m.withLimit limit)]
  simp only [skip_withLimit, skipLine_withLimit]
  refine congrArg (matchBody attempt body (m.skip o true) >>= ·) (funext fun found => ?_)
  cases found with
  | ok result =>
    dsimp only
    by_cases h : o < result.stop ∧ result.stop ≤ m.document.size
    · rw [if_pos h, if_pos h, ih _ (by omega) _ rfl]
    · rw [if_neg h, if_neg h]
  | error attempts =>
    refine congrArg (attempt closing (m.skip o true) >>= ·) (funext fun last => ?_)
    rcases m.skipLine (m.skip o true) attempts with ⟨line, _ | next⟩
    · rfl
    · dsimp only
      by_cases h : o < next ∧ next ≤ m.document.size
      · rw [if_pos h, if_pos h, ih _ (by omega) _ rfl]
      · rw [if_neg h, if_neg h]

theorem matchLines_withLimit (attempt : Attempt) (body : List ItemId) (o : Nat) :
    (m.withLimit limit).matchLines attempt body o = m.matchLines attempt body o := by
  induction h : m.document.size - o using Nat.strong_induction_on generalizing o with
  | _ n ih =>
  subst h
  rw [matchLines.eq_1 m, matchLines.eq_1 (m.withLimit limit)]
  simp only [skip_withLimit, skipLine_withLimit]
  by_cases hend : m.document.size ≤ m.skip o true
  · rw [if_pos hend, if_pos hend]
  rw [if_neg hend, if_neg hend]
  refine congrArg (matchBody attempt body (m.skip o true) >>= ·) (funext fun found => ?_)
  cases found with
  | ok result =>
    dsimp only
    by_cases h : o < result.stop ∧ result.stop ≤ m.document.size
    · rw [if_pos h, if_pos h, ih _ (by omega) _ rfl]
    · rw [if_neg h, if_neg h]
  | error attempts =>
    dsimp only
    rcases m.skipLine (m.skip o true) attempts with ⟨line, _ | next⟩
    · rfl
    · dsimp only
      by_cases h : o < next ∧ next ≤ m.document.size
      · rw [if_pos h, if_pos h, ih _ (by omega) _ rfl]
      · rw [if_neg h, if_neg h]

theorem matchStep_withLimit (attempt : Attempt) (id : ItemId) (item : Item) (o : Nat) :
    (m.withLimit limit).matchStep attempt id item o = m.matchStep attempt id item o := by
  cases item with
  | blank | text | token | sequence | alternation | named => rfl
  | scope s opening closing body =>
    simp only [matchStep, matchScope, skip_withLimit, matchRegion_withLimit]
  | grammar body =>
    simp only [matchStep, matchGrammar, matchLines_withLimit]

end Limit

/-! ### Limits that are never met -/

theorem matchAt_eq_step (ho : m.document.IsBoundary o) (depth : Nat) (id : ItemId) :
    m.matchAt (depth + 1) id o = match m.grammar.item? id with
      | some item => m.matchStep (m.matchAt depth) id item o
      | none => pure (.leaf id .unmatched o o) := by
  have hslice : ¬ (m.document.sliceAt o).isNone := by
    rw [ho.isNone_sliceAt]
    decide
  unfold matchAt
  refine (if_neg hslice).trans ?_
  cases m.grammar.item? id <;> rfl

theorem matchAt_outside (ho : ¬ m.document.IsBoundary o) (depth : Nat) (id : ItemId) :
    m.matchAt depth id o = ⟨.leaf id .unmatched (min o m.document.size) (min o m.document.size),
      [.invalidOffset id o]⟩ := by
  unfold matchAt
  rw [if_pos (Document.isNone_sliceAt ho)]
  rfl

theorem events_matchAt_zero (ho : m.document.IsBoundary o) (id : ItemId) :
    (m.matchAt 0 id o).events = [.depthLimit m.depthLimit o] := by
  rw [matchAt, if_neg (by rw [ho.isNone_sliceAt]; decide)]
  rfl

/-- **More depth changes nothing** where no attempt was cut off. -/
theorem matchAt_withLimit (m : Matcher) (limit : Nat) : ∀ (n k : Nat) (id : ItemId) (o : Nat), n ≤ k →
    (m.matchAt n id o).Uncut → (m.withLimit limit).matchAt k id o = m.matchAt n id o := by
  intro n
  induction n with
  | zero =>
    intro k id o _ hcut
    by_cases ho : m.document.IsBoundary o
    · have := hcut _ (by rw [events_matchAt_zero ho]; exact List.mem_singleton.mpr rfl)
      cases this
    · rw [matchAt_outside ho, matchAt_outside (m := m.withLimit limit) ho]
  | succ n ih =>
    intro k id o hk hcut
    obtain ⟨k, rfl⟩ := Nat.exists_eq_add_of_lt hk
    by_cases ho : m.document.IsBoundary o
    · rw [matchAt_eq_step ho] at hcut
      rw [matchAt_eq_step (m := m.withLimit limit) ho, matchAt_eq_step ho]
      cases hitem : m.grammar.item? id with
      | none => rfl
      | some item =>
        rw [hitem] at hcut
        dsimp only at hcut ⊢
        obtain ⟨script, hfollows, -, -⟩ := callsOnly_matchStep (sound_matchAt m n) ho id item
        rw [matchStep_withLimit]
        -- the calls of the item were not cut off either
        refine hfollows.congr fun id' o' hcall => ih (n + k) id' o' (Nat.le_add_right n k) fun e he => ?_
        refine hcut e ?_
        rw [hfollows.events_eq]
        exact mem_replay.mpr (Or.inr ⟨id', o', hcall, he⟩)
    · rw [matchAt_outside ho, matchAt_outside (m := m.withLimit limit) ho]

/-- Two limits that are both never met give the same result. -/
theorem matchItem_withLimit {limit : Nat} {id : ItemId} (h : (m.matchItem id o).Uncut)
    (h' : ((m.withLimit limit).matchItem id o).Uncut) :
    (m.withLimit limit).matchItem id o = m.matchItem id o := by
  rcases Nat.le_total m.depthLimit limit with hle | hle
  · exact matchAt_withLimit m limit m.depthLimit limit id o hle h
  · exact (matchAt_withLimit (m.withLimit limit) m.depthLimit limit m.depthLimit id o hle h').symm

end Matcher

/-! ### Symbols and completions -/

/-- The assistant with another limit of the depth. -/
def Assistant.withLimit (a : Assistant) (limit : Nat) : Assistant :=
  { a with settings := { a.settings with depthLimit := limit } }

theorem Assistant.events_matchTree (a : Assistant) (d : Document) :
    (a.matchTree d).events = (a.matcher d).matchDocument.events :=
  List.append_nil _

theorem Assistant.analyse_of_matchTree {a : Assistant} {d : Document} {limit : Nat}
    (h : (a.withLimit limit).matchTree d = a.matchTree d) :
    (a.withLimit limit).analyse d = a.analyse d := by
  unfold analyse
  rw [h]
  rfl

theorem Assistant.complete_of_analyse {a : Assistant} {d : Document} {limit : Nat}
    (h : (a.withLimit limit).analyse d = a.analyse d) (position : Position) :
    (a.withLimit limit).complete d position = a.complete d position := by
  unfold complete
  rw [h]
  -- completion itself does not read the limit
  rfl

/-- **The limit of the depth does not show unless it is met.** A result without a cut stays as it is, with
its events, for every larger limit. Two limits that are never met on a document give the same match tree,
the same symbols and the same completions. -/
theorem uncut_withLimit (m : Matcher) (id : ItemId) (o : Nat) (a : Assistant) (d : Document)
    (limit : Nat) :
    (m.depthLimit ≤ limit → (m.matchItem id o).Uncut →
      (m.withLimit limit).matchItem id o = m.matchItem id o) ∧
    ((a.matchTree d).Uncut → ((a.withLimit limit).matchTree d).Uncut →
      (a.withLimit limit).matchTree d = a.matchTree d ∧
      (a.withLimit limit).analyse d = a.analyse d ∧
      ∀ position, (a.withLimit limit).complete d position = a.complete d position) := by
  refine ⟨fun hle h => Matcher.matchAt_withLimit m limit m.depthLimit limit id o hle h, fun h h' => ?_⟩
  have hmatch : ((a.withLimit limit).matcher d).matchDocument = (a.matcher d).matchDocument := by
    refine Matcher.matchItem_withLimit (m := a.matcher d) (fun e he => h e ?_) fun e he => h' e ?_
    · rw [Assistant.events_matchTree]; exact he
    · rw [Assistant.events_matchTree]; exact he
  have htree : (a.withLimit limit).matchTree d = a.matchTree d := by
    unfold Assistant.matchTree
    rw [hmatch]
  have hanalyse := Assistant.analyse_of_matchTree htree
  exact ⟨htree, hanalyse, Assistant.complete_of_analyse hanalyse⟩

/-- A block inside a block, and a line that nothing explains. -/
def nestedBlocks : Document :=
  .ofString "\x7b \x7bvalue on;\x7d\n? \x7d"

/-- The nested blocks are matched eight attempts deep, so the default limit gives the same match and the
same completions as a limit of eight. -/
theorem uncut_withLimit_nestedBlocks : ∃ c, blockGrammar.compile .standard = .ok c ∧
    (Matcher.matchItem ⟨c, nestedBlocks, 8⟩ CompiledGrammar.root 0).Uncut ∧
    Matcher.matchItem ⟨c, nestedBlocks, 512⟩ CompiledGrammar.root 0 =
      Matcher.matchItem ⟨c, nestedBlocks, 8⟩ CompiledGrammar.root 0 ∧
    Assistant.complete ⟨c, .builtin, ⟨8, true⟩⟩ nestedBlocks ⟨1, 1⟩ =
      Assistant.complete ⟨c, .builtin, ⟨512, true⟩⟩ nestedBlocks ⟨1, 1⟩ := by
  obtain ⟨c, hc⟩ := exists_compile_blockGrammar
  have huncut : ∀ limit ∈ [8, 512],
      (Matcher.matchItem ⟨c, nestedBlocks, limit⟩ CompiledGrammar.root 0).Uncut := by
    have heval : ((blockGrammar.compile .standard).toOption.map fun c => [8, 512].all fun limit =>
        (Matcher.matchItem ⟨c, nestedBlocks, limit⟩ CompiledGrammar.root 0).events.all
          fun e => !e.isDepthLimit) = some true := by
      decide +kernel
    rw [hc] at heval
    intro limit hlimit e he
    simpa using List.all_eq_true.mp (List.all_eq_true.mp (Option.some.inj heval) limit hlimit) e he
  have h8 := huncut 8 (by simp)
  have htree : ∀ limit ∈ [8, 512],
      (Assistant.matchTree ⟨c, .builtin, ⟨limit, true⟩⟩ nestedBlocks).Uncut := by
    intro limit hlimit e he
    rw [Assistant.events_matchTree] at he
    exact huncut limit hlimit e he
  obtain ⟨hitem, -⟩ := uncut_withLimit ⟨c, nestedBlocks, 8⟩ CompiledGrammar.root 0
    ⟨c, .builtin, ⟨512, true⟩⟩ nestedBlocks 512
  obtain ⟨-, hdocument⟩ := uncut_withLimit ⟨c, nestedBlocks, 8⟩ CompiledGrammar.root 0
    ⟨c, .builtin, ⟨512, true⟩⟩ nestedBlocks 8
  obtain ⟨-, -, hcomplete⟩ := hdocument (htree 512 (by simp)) (htree 8 (by simp))
  exact ⟨c, hc, h8, hitem (Nat.le_of_ble_eq_true rfl) h8, hcomplete ⟨1, 1⟩⟩

end ShaderAssist

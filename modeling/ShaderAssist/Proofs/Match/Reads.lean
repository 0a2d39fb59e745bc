import ShaderAssist.Proofs.Match.Layout
import ShaderAssist.Proofs.Match.Recovery
import ShaderAssist.Proofs.Match.Stability
import ShaderAssist.Proofs.Match.Termination

/-!
# What matching reads

A machine that was set on a boundary of the text reads the text at boundaries only. Its cursors come from
blanks and comments, words, results inside others, and starts of lines; each of them is a boundary if the
one before it was (`Config.Sound.goes`). So no slice of the text and no lookup of a line fails in any state
on the way (`Slices`, `SkipsLine`), and every node of the result has a text.
-/

namespace ShaderAssist

namespace Machine

variable (m : Matcher) (c : Config)

/-- **Where a machine takes a slice of the text** in its next step. -/
inductive Slices : Nat → Prop
  /-- An item is tried; blanks and comments are passed over from there. -/
  | call {id : ItemId} {o : Nat} : c.control = .call id o → Slices o
  /-- A word is looked for behind them. -/
  | word {id : ItemId} {o : Nat} {item : Item} {find : Slice → Option Nat} {crossLine : Bool} :
      c.control = .call id o → m.grammar.item? id = some item → item.word? = some (find, crossLine) →
      Slices (m.skip o crossLine)
  /-- A loop passes over blanks and comments at its head. -/
  | loop {k : Content} {cursor : Nat} {done : List Match} :
      c.control = .loop k cursor done → Slices cursor

/-- **Where a machine skips a line** in its next step if there is nothing else to try there, and the attempts
that failed there. -/
inductive SkipsLine : Nat → List Match → Prop
  | loop {k : Content} {cursor : Nat} {done : List Match} :
      c.control = .loop k cursor done → SkipsLine (m.skip cursor true) []
  | body {r : Match} {k : Content} {cursor : Nat} {rest : List ItemId} {attempts done : List Match}
      {stack : List Frame} : c.control = .ret r →
      c.stack = .body k cursor rest attempts done :: stack → SkipsLine cursor (attempts ++ [r])
  | closing {r : Match} {k : Content} {cursor : Nat} {attempts done : List Match} {stack : List Frame} :
      c.control = .ret r → c.stack = .closing k cursor attempts done :: stack → SkipsLine cursor attempts

/-- All cursors are boundaries, and the failed attempts were made at them. -/
structure Config.Sound : Prop where
  calls : ∀ call ∈ c.calls, m.document.IsBoundary call.2
  call : ∀ id o, c.control = .call id o → m.document.IsBoundary o
  stage : c.stage.Ok m
  stack : ∀ f ∈ c.stack, (Stage.waiting f).Ok m

variable {m c} {c' : Config}

/-- What comes back to an item was found where the item tried it, in every run that comes to its end. -/
theorem Reaches.placed (h : Reaches m c c') (hidle : c'.control = .idle) {r : Match} {f : Frame}
    {stack : List Frame} (hc : c.control = .ret r) (hstack : c.stack = f :: stack) :
    r.PlacedAt m.document f.cursor := by
  rcases h.cases_head with rfl | ⟨_, hgoes, -⟩
  · rw [hc] at hidle
    cases hidle
  · exact hgoes.placed r f stack hc hstack

namespace Config.Sound

theorem ofCalls {calls : List (ItemId × Nat)} (h : ∀ call ∈ calls, m.document.IsBoundary call.2) :
    (Config.ofCalls calls).Sound m where
  calls := h
  call _ _ hc := by cases hc
  stage := Stage.ok_finished
  stack f hf := by cases hf

/-- The innermost item makes a move over items that are sound. -/
theorem move (h : c.Sound m) {depth : Nat} {stack : List Frame} (hstack : stack ⊆ c.stack) {mv : Move}
    (hmv : mv.stage.Ok m) : (c.move depth stack mv).Sound m := by
  have hstack : ∀ f ∈ stack, (Stage.waiting f).Ok m := fun f hf => h.stack f (hstack hf)
  have hstage : (c.move depth stack mv).stage.Ok m := by
    rw [stage_move]
    exact hmv
  cases mv with
  | call frame id =>
    refine ⟨h.calls, fun id o hc => ?_, hstage, List.forall_mem_cons.mpr ⟨hmv, hstack⟩⟩
    obtain ⟨-, rfl⟩ := Control.call.inj hc
    exact hmv.cursor
  | loop k cursor done => exact ⟨h.calls, fun _ _ hc => (by cases hc), hstage, hstack⟩
  | leave r => exact ⟨h.calls, fun _ _ hc => (by cases hc), hstage, hstack⟩

/-- A machine between two items, over the same stack. -/
theorem control (h : c.Sound m) (hc : c'.control.active = 0) (hstack : c'.stack = c.stack)
    (hcalls : c'.calls ⊆ c.calls) (hcall : ∀ id o, c'.control = .call id o → m.document.IsBoundary o) :
    c'.Sound m := by
  have hstack : ∀ f ∈ c'.stack, (Stage.waiting f).Ok m := by
    rw [hstack]
    exact h.stack
  refine ⟨fun call hmem => h.calls call (hcalls hmem), hcall, ?_, hstack⟩
  rw [stage_of_active hc]
  cases hs : c'.stack with
  | nil => exact Stage.ok_finished
  | cons f stack => exact hstack f (by rw [hs]; exact List.mem_cons_self)

theorem isBoundary_loop (h : c.Sound m) {k : Content} {cursor : Nat} {done : List Match}
    (hc : c.control = .loop k cursor done) : m.document.IsBoundary cursor := by
  have hstage := h.stage.cursor
  unfold Config.stage at hstage
  rw [hc] at hstage
  exact hstage

theorem ret (h : c.Sound m) (depth : Nat) (r : Match) :
    Config.Sound m { c with depth := depth, control := .ret r } :=
  h.control rfl rfl (List.Subset.refl _) fun _ _ hcall => by cases hcall

/-- **A step leads from boundaries to boundaries.** -/
theorem goes (h : c.Sound m) (hgoes : Goes m c c') : c'.Sound m := by
  have hstep := hgoes.step
  cases hc : c.control with
  | idle =>
    rw [step, hc] at hstep
    rcases hcalls : c.calls with _ | ⟨⟨id, o⟩, calls⟩
    · rw [hcalls] at hstep
      cases hstep
    · rw [hcalls] at hstep
      obtain rfl := Option.some.inj hstep
      refine h.control rfl rfl (by rw [hcalls]; exact List.subset_cons_self _ _) fun id' o' hcall => ?_
      obtain ⟨-, rfl⟩ := Control.call.inj hcall
      exact h.calls (id, o) (by rw [hcalls]; exact List.mem_cons_self)
  | call id o =>
    have ho := h.call id o hc
    rw [step, hc] at hstep
    dsimp only at hstep
    split_ifs at hstep
    · obtain rfl := Option.some.inj hstep
      exact h.ret _ _
    · obtain rfl := Option.some.inj hstep
      exact h.ret _ _
    · cases hitem : m.grammar.item? id with
      | none =>
        rw [hitem] at hstep
        obtain rfl := Option.some.inj hstep
        exact h.ret _ _
      | some item =>
        rw [hitem] at hstep
        obtain rfl := Option.some.inj hstep
        exact h.move (List.Subset.refl _) (ok_enter ho id item)
  | loop k cursor done =>
    have hcursor := h.isBoundary_loop hc
    rw [step, hc] at hstep
    obtain rfl := Option.some.inj hstep
    exact h.move (List.Subset.refl _) (next_turn hcursor k done).ok
  | leave r =>
    rw [step, hc] at hstep
    obtain rfl := Option.some.inj hstep
    exact h.ret _ _
  | ret r =>
    rw [step, hc] at hstep
    rcases hstack : c.stack with _ | ⟨frame, stack⟩
    · rw [hstack] at hstep
      obtain rfl := Option.some.inj hstep
      exact h.control rfl hstack.symm (List.Subset.refl _) fun _ _ hcall => by cases hcall
    · have hframe := h.stack frame (by rw [hstack]; exact List.mem_cons_self)
      have hplaced := hgoes.placed r frame stack hc hstack
      rw [hstack] at hstep
      obtain rfl := Option.some.inj hstep
      refine h.move ?_ (next_resume hframe hplaced).ok
      rw [hstack]
      exact List.subset_cons_self _ _

/-- **A run stays on boundaries.** -/
theorem reaches (h : c.Sound m) (hr : Reaches m c c') : c'.Sound m := by
  induction hr with
  | refl => exact h
  | tail _ hgoes ih => exact ih.goes hgoes

/-- **Every slice is a slice of the text.** -/
theorem slices (h : c.Sound m) {a : Nat} (ha : Slices m c a) : m.document.IsBoundary a := by
  cases ha with
  | call hc => exact h.call _ _ hc
  | word hc _ _ => exact (Matcher.passes_skip (h.call _ _ hc) _).isBoundary_right
  | loop hc => exact h.isBoundary_loop hc

/-- **Every line that is skipped is found.** -/
theorem skipsLine (h : c.Sound m) (hr : Reaches m c c') (hidle : c'.control = .idle) {a : Nat}
    {attempts : List Match} (ha : SkipsLine m c a attempts) :
    m.skipLine? a attempts = some (m.skipLine a attempts) := by
  refine Matcher.skipLine?_eq ?_
  cases ha with
  | loop hc =>
    exact (Matcher.passes_skip (h.isBoundary_loop hc) true).isBoundary_right
  | @body r k cursor rest attempts done stack hc hstack =>
    have hframe := h.stack _ (by rw [hstack]; exact List.mem_cons_self)
    have hplaced := hr.placed hidle hc hstack
    refine Match.isBoundary_furthest hframe.cursor (List.forall_mem_append.mpr ⟨fun s hs => ?_, ?_⟩)
    · exact (hframe.attempts _ rfl s hs).stop
    · exact List.forall_mem_singleton.mpr hplaced.stop
  | closing hc hstack =>
    have hframe := h.stack _ (by rw [hstack]; exact List.mem_cons_self)
    exact Match.isBoundary_furthest hframe.cursor fun s hs => (hframe.attempts _ rfl s hs).stop

end Config.Sound

end Machine

namespace Matcher

open Machine

variable {m : Matcher} {id : ItemId} {o : Nat}

/-- No attempt inside a match is made outside of the text. -/
theorem invalidOffset_not_mem_events : ∀ (depth : Nat) {id : ItemId} {o : Nat},
    m.document.IsBoundary o → ∀ id' o', .invalidOffset id' o' ∉ (m.matchAt depth id o).events
  | 0, id, o, ho, id', o' => by
    rw [events_matchAt_zero ho]
    simp
  | depth + 1, id, o, ho, id', o' => by
    rw [matchAt_eq_step ho]
    cases m.grammar.item? id with
    | none => exact List.not_mem_nil
    | some item =>
      obtain ⟨script, hfollows, hevents, hcalls⟩ :=
        callsOnly_matchStep (sound_matchAt m depth) ho id item
      dsimp only
      rw [hfollows.events_eq, mem_replay]
      rintro (hevent | ⟨id₁, o₁, hcall, hevent⟩)
      · obtain ⟨_, he⟩ := hevents _ hevent
        cases he
      · exact invalidOffset_not_mem_events depth (hcalls id₁ o₁ hcall).isBoundary id' o' hevent

/-- Both ends of a match are boundaries of the text. -/
def Bounded (m : Matcher) (r : Match) : Prop :=
  m.document.IsBoundary r.start ∧ m.document.IsBoundary r.stop

/-- **Matching stays in the text** from an offset on. -/
structure StaysInText (m : Matcher) (id : ItemId) (o : Nat) : Prop where
  /-- The machine comes to the result. -/
  returns : Runs m (.ofCalls [(id, o)]) ⟨0, .idle, [], [], [(m.matchItem id o).value]⟩
  /-- On the way every item is tried at a boundary, and all nodes of what it returns are bounded. -/
  calls : ∀ c id' o', Runs m (.ofCalls [(id, o)]) c → c.control = .call id' o' →
    m.document.IsBoundary o' ∧ ∃ r, Runs m c { c with control := .ret r } ∧ ∀ s ∈ r.nodes, m.Bounded s
  slices : ∀ c a, Runs m (.ofCalls [(id, o)]) c → Slices m c a → (m.document.sliceAt a).isSome
  lines : ∀ c a attempts, Runs m (.ofCalls [(id, o)]) c → SkipsLine m c a attempts →
    m.skipLine? a attempts = some (m.skipLine a attempts)
  nodes : ∀ s ∈ (m.matchItem id o).value.nodes, m.Bounded s
  events : ∀ id' o', .invalidOffset id' o' ∉ (m.matchItem id o).events
  texts : ∀ k n, (MatchTree.ofMatch (m.matchItem id o).value).node? k = some n →
    ∃ t, m.document.textBetween n.start n.stop = some t ∧
      (MatchTree.ofMatch (m.matchItem id o).value).text m.document k = String.ofList t

theorem bounded_nodes (ho : m.document.IsBoundary o) (depth : Nat) (id : ItemId) :
    ∀ s ∈ (m.matchAt depth id o).value.nodes, m.Bounded s := by
  intro s hs
  have hlaid := laid_nodes depth id ho s hs
  exact ⟨hlaid.start, hlaid.stop⟩

/-- The text of a node is the text between its ends. -/
theorem exists_text_of_node? (ho : m.document.IsBoundary o) {k : NodeId} {n : MatchNode}
    (hn : (MatchTree.ofMatch (m.matchItem id o).value).node? k = some n) :
    ∃ t, m.document.textBetween n.start n.stop = some t ∧
      (MatchTree.ofMatch (m.matchItem id o).value).text m.document k = String.ofList t := by
  obtain ⟨r, hr, hinfo, -⟩ := MatchTree.exists_of_node? hn
  have hlaid := laid_nodes m.depthLimit id ho r (List.mem_of_getElem? hr)
  have hstart : n.start = r.start := congrArg MatchInfo.start hinfo
  have hstop : n.stop = r.stop := congrArg MatchInfo.stop hinfo
  obtain ⟨t, rest, hrest, hend⟩ := Document.exists_restAt_append hlaid.start hlaid.stop hlaid.le
  have htext : m.document.textBetween n.start n.stop = some t := by
    rw [hstart, hstop, hend]
    exact hrest.textBetween
  refine ⟨t, htext, ?_⟩
  unfold MatchTree.text
  rw [hn]
  dsimp only
  rw [htext]
  rfl

/-- **No invalid offset.** An item that is tried at a boundary of the text is matched without a slice or a
lookup that fails. -/
theorem staysInText (m : Matcher) (id : ItemId) (o : Nat) (ho : m.document.IsBoundary o) :
    m.StaysInText id o := by
  have hreaches := reaches_calls m [(id, o)] []
  have hstart : (Config.ofCalls [(id, o)]).Sound m := .ofCalls (List.forall_mem_singleton.mpr ho)
  have hsound : ∀ c, Runs m (.ofCalls [(id, o)]) c → c.Sound m := fun c hruns =>
    hstart.reaches (hreaches.of_runs rfl hruns).1
  refine ⟨hreaches.runs, ?_, ?_, ?_, ?_, ?_, fun k n => exists_text_of_node? ho⟩
  · intro c id' o' hruns hc
    have hlimit := ((balanced_ofCalls (m := m) [(id, o)]).runs hruns).limit
    have hcall := (hsound c hruns).call id' o' hc
    have hreturns := simulates_matchAt m (m.depthLimit - c.depth) c.depth (Nat.add_sub_of_le hlimit)
      id' o' c.stack c.calls c.results
    rw [← hc] at hreturns
    exact ⟨hcall, _, hreturns.runs, bounded_nodes hcall _ id'⟩
  · intro c a hruns ha
    exact Document.isSome_sliceAt_iff.mpr ((hsound c hruns).slices ha)
  · intro c a attempts hruns ha
    exact (hsound c hruns).skipsLine (hreaches.of_runs rfl hruns).2 rfl ha
  · exact bounded_nodes ho m.depthLimit id
  · exact invalidOffset_not_mem_events m.depthLimit ho

end Matcher

/-- A block behind a letter of two bytes, with a line in it that nothing explains. -/
def accentedBlock : Document :=
  .ofString "\u00e9\x7b value\r\n \u00e9 \x7d"

theorem staysInText_accentedBlock : ∃ c, blockGrammar.compile .standard = .ok c ∧ accentedBlock.IsBoundary 2 ∧
    Matcher.StaysInText ⟨c, accentedBlock, 512⟩ CompiledGrammar.root 2 := by
  obtain ⟨c, hc⟩ := exists_compile_blockGrammar
  have hboundary : accentedBlock.IsBoundary 2 := Document.isSome_sliceAt_iff.mp (by decide)
  exact ⟨c, hc, hboundary, Matcher.staysInText ⟨c, accentedBlock, 512⟩ CompiledGrammar.root 2 hboundary⟩

end ShaderAssist

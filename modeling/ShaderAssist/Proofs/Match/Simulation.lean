import ShaderAssist.Proofs.Match.Progress

/-!
# What the matching machine computes

A call of the machine comes to its return with the result of the attempt, at the same depth and over the
same stack (`simulates_matchAt`). Every step on the way enters an item one level deeper, goes on inside the
innermost item, or answers (`Advances`).
-/

namespace ShaderAssist

namespace Machine

open Relation (ReflTransGen)

/-- Where the item on top of a stack stands. -/
def Stage.ofStack : List Frame → Stage
  | [] => .finished
  | frame :: _ => .waiting frame

/-- Where the innermost item of a machine stands. -/
def Config.stage (c : Config) : Stage :=
  match c.control with
  | .loop k cursor _ => .head k cursor
  | .leave _ => .finished
  | .idle | .call .. | .ret _ => .ofStack c.stack

variable (m : Matcher)

/-- No cursor is past the end of the text. -/
structure Config.InText (c : Config) : Prop where
  stage : c.stage.cursor m ≤ m.document.size
  stack : ∀ f ∈ c.stack, f.cursor ≤ m.document.size

/-- A step that begins or ends a call. -/
def Answers (c c' : Config) : Prop :=
  c.control = .idle ∨ c'.control = .idle ∨ ∃ r, c'.control = .ret r

/-- What a step does. -/
inductive Advances (c c' : Config) : Prop
  /-- It enters an item one level deeper. -/
  | enters : c.depth < m.depthLimit → c'.depth = c.depth + 1 → Advances c c'
  /-- It goes on inside the innermost item. -/
  | next : c'.depth = c.depth → c.stage.Next m c'.stage → Advances c c'
  | answers : Answers c c' → Advances c c'

/-- A step that advances and stays in the text. -/
structure Goes (c c' : Config) : Prop where
  step : step m c = some c'
  advances : Advances m c c'
  inText : c.InText m → c'.InText m
  /-- What comes back to an item was found where the item tried it. -/
  placed : ∀ r f stack, c.control = .ret r → c.stack = f :: stack → r.PlacedAt m.document f.cursor

/-- The machine comes from a state to another one in steps that advance. -/
abbrev Reaches : Config → Config → Prop :=
  ReflTransGen (Goes m)

/-- The machine has the results of an attempt at a depth, and goes back to where the call was. -/
def Simulates (depth : Nat) (attempt : Matcher.Attempt) : Prop :=
  ∀ id o stack calls results, Reaches m ⟨depth, .call id o, stack, calls, results⟩
    ⟨depth, .ret (attempt id o).value, stack, calls, results⟩

/-- The innermost item makes a move. -/
abbrev Config.makes (c : Config) (mv : Move) : Config :=
  c.move c.depth c.stack mv

variable {m} {c : Config} {mv : Move} {depth : Nat} {stack : List Frame}

/-! ### Steps that advance -/

@[simp] theorem stage_move : (c.move depth stack mv).stage = mv.stage := by
  cases mv <;> rfl

@[simp] theorem depth_move : (c.move depth stack mv).depth = depth := by
  cases mv <;> rfl

theorem inText_move (hstack : ∀ f ∈ stack, f.cursor ≤ m.document.size) (hmv : mv.stage.Ok m) :
    (c.move depth stack mv).InText m := by
  refine ⟨by rw [stage_move]; exact hmv.cursor.le_size, ?_⟩
  cases mv with
  | call frame id =>
    intro f hf
    rcases List.mem_cons.mp hf with rfl | hf
    · exact hmv.cursor.le_size
    · exact hstack f hf
  | loop k cursor done => exact hstack
  | leave r => exact hstack

/-- A move of the innermost item, which is popped from the stack if it is on it. -/
theorem goes_next (hstep : Machine.step m c = some (c.move c.depth stack mv))
    (hnext : c.stage.Next m mv.stage) (hsub : stack ⊆ c.stack)
    (hplaced : ∀ r f stack, c.control = .ret r → c.stack = f :: stack →
      r.PlacedAt m.document f.cursor) : Goes m c (c.move c.depth stack mv) where
  step := hstep
  advances := .next depth_move (by rw [stage_move]; exact hnext)
  inText h := inText_move (fun f hf => h.stack f (hsub hf)) hnext.ok
  placed := hplaced

/-- Between two items the innermost one is the one on top of the stack. -/
theorem stage_of_active (hc : c.control.active = 0) : c.stage = .ofStack c.stack := by
  unfold Config.stage
  rcases h : c.control with _ | _ | _ | _ | _
  · rfl
  · rfl
  · rw [h] at hc; cases hc
  · rw [h] at hc; cases hc
  · rfl

theorem inText_of_active (hc : c.control.active = 0)
    (hstack : ∀ f ∈ c.stack, f.cursor ≤ m.document.size) : c.InText m := by
  refine ⟨?_, hstack⟩
  rw [stage_of_active hc]
  cases hs : c.stack with
  | nil => exact le_rfl
  | cons f stack => exact hstack f (by rw [hs]; exact List.mem_cons_self)

theorem goes_answer {c' : Config} (hstep : Machine.step m c = some c') (ha : Answers c c')
    (hstack : c'.stack = c.stack) (hc : c'.control.active = 0)
    (hret : ∀ r, c.control = .ret r → c.stack = []) : Goes m c c' where
  step := hstep
  advances := .answers ha
  inText h := inText_of_active hc (by rw [hstack]; exact h.stack)
  placed r f stack hr hf := absurd (hf.symm.trans (hret r hr)) (List.cons_ne_nil f stack)

theorem goes_enter {id : ItemId} {o : Nat} {item : Item} (ho : m.document.IsBoundary o)
    (hdepth : c.depth < m.depthLimit) (hitem : m.grammar.item? id = some item)
    (hc : c.control = .call id o) : Goes m c (c.move (c.depth + 1) c.stack (enter m id o item)) where
  step := by
    unfold step
    rw [hc]
    dsimp only
    rw [if_neg (by rw [ho.isNone_sliceAt]; decide), if_neg (Nat.not_le_of_lt hdepth), hitem]
  advances := .enters hdepth depth_move
  inText h := inText_move h.stack (ok_enter ho id item)
  placed r _ _ hr _ := by
    rw [hc] at hr
    cases hr

theorem goes_turn {k : Content} {a : Nat} (ha : m.document.IsBoundary a) (done : List Match) :
    Goes m (c.makes (.loop k a done)) (c.makes (turn m k a done)) := by
  have hmove : c.makes (turn m k a done) =
      (c.makes (.loop k a done)).move c.depth c.stack (turn m k a done) := by
    cases turn m k a done <;> rfl
  rw [hmove]
  exact goes_next rfl (next_turn ha k done) (List.Subset.refl _) fun _ _ _ hr _ => by cases hr

/-! ### Loops -/

section Activation
variable {attempt : Matcher.Attempt} {id : ItemId} {o : Nat}
  (hsim : Simulates m c.depth attempt) (ha : m.Sound attempt)
include hsim ha

/-- The machine comes from a call inside an item to what the item does afterwards. -/
theorem reaches_resume (f : Frame)
    (hf : (Stage.waiting f).Ok m) (id : ItemId) {mv : Move}
    (hmv : resume m (attempt id f.cursor).value f = mv) :
    Reaches m (c.makes (.call f id)) (c.makes mv) := by
  refine (hsim id f.cursor (f :: c.stack) c.calls c.results).tail ?_
  have hmove : c.makes mv = Config.move ⟨c.depth, .ret (attempt id f.cursor).value, f :: c.stack,
      c.calls, c.results⟩ c.depth c.stack (resume m (attempt id f.cursor).value f) := by
    rw [hmv]
    cases mv <;> rfl
  rw [hmove]
  have hplaced := ha id f.cursor hf.cursor
  refine goes_next rfl (next_resume hf hplaced) (List.subset_cons_self _ _) fun r g stack hr hg => ?_
  obtain rfl := Control.ret.inj hr
  obtain ⟨rfl, -⟩ := List.cons.inj hg
  exact hplaced

/-- The machine goes through the elements of a sequence. -/
theorem reaches_elements (id : ItemId) (offset : Nat) {es : List SequenceElement} {rs : List Match}
    {b : Bool} (h : Matcher.ElementsRun attempt es o rs b) (ho : m.document.IsBoundary o)
    (done : List Match) :
    Reaches m (c.makes (tryElements id offset o es done))
      (c.makes (.leave (sequenceNode id offset b (done ++ rs)))) := by
  -- one attempt in every case but the first, and then the move after it
  induction h generalizing done with
  | done => rw [List.append_nil]; exact .refl
  | @failed item es o hm =>
    refine reaches_resume hsim ha (.sequence id offset o ⟨item, .one⟩ es done)
      (Stage.ok_plain rfl ho) item ?_
    exact (if_neg hm).trans (if_pos rfl)
  | @left item k es o rs b hk hm _ ih =>
    refine (reaches_resume hsim ha (.sequence id offset o ⟨item, k⟩ es done)
      (Stage.ok_plain rfl ho) item ?_).trans (ih ho done)
    exact (if_neg hm).trans (if_neg hk)
  | @passed item k es o rs b hm hk _ ih =>
    have hrest := ih (ha item o ho).stop (done ++ [(attempt item o).value])
    rw [List.append_assoc] at hrest
    refine (reaches_resume hsim ha (.sequence id offset o ⟨item, k⟩ es done)
      (Stage.ok_plain rfl ho) item ?_).trans hrest
    refine (if_pos hm).trans ?_
    rw [if_neg fun h => absurd (hk h.1) (Nat.not_le_of_lt h.2)]
    rfl
  | @again item es o rs b hm hlt _ ih =>
    have hrest := ih (ha item o ho).stop (done ++ [(attempt item o).value])
    rw [List.append_assoc] at hrest
    refine (reaches_resume hsim ha (.sequence id offset o ⟨item, .many⟩ es done)
      (Stage.ok_plain rfl ho) item ?_).trans hrest
    refine (if_pos hm).trans ?_
    rw [if_pos ⟨rfl, hlt⟩]
    rfl

/-- The machine goes on behind alternatives that do not match. -/
theorem reaches_alternatives (ho : m.document.IsBoundary o) (id : ItemId) (p : PatternId)
    (rest : List ItemId) :
    ∀ (before : List ItemId) (attempts : List Match),
      Matcher.NoneOf Match.isMatched attempt before o →
      Reaches m (c.makes (tryAlternatives id p o (before ++ rest) attempts))
        (c.makes (tryAlternatives id p o rest (attempts ++ Matcher.tries attempt before o)))
  | [], attempts, _ => by
    rw [Matcher.tries, List.map_nil, List.append_nil]
    exact .refl
  | a :: before, attempts, hn => by
    have hrest := reaches_alternatives ho id p rest before
      (attempts ++ [(attempt a o).value]) fun b hb => hn b (List.mem_cons_of_mem a hb)
    rw [List.append_assoc] at hrest
    refine (reaches_resume hsim ha (.alternation id p o (before ++ rest) attempts)
      (Stage.ok_plain rfl ho) a ?_).trans hrest
    exact if_neg (hn a List.mem_cons_self)

/-- The machine goes on behind patterns of a body that do not advance. -/
theorem reaches_body (ho : m.document.IsBoundary o) (k : Content) (done : List Match)
    (rest : List ItemId) :
    ∀ (before : List ItemId) (attempts : List Match), (∀ r ∈ attempts, r.PlacedAt m.document o) →
      Matcher.NoneOf (Matcher.advances o) attempt before o →
      Reaches m (c.makes (tryBody m k o (before ++ rest) attempts done))
        (c.makes (tryBody m k o rest (attempts ++ Matcher.tries attempt before o) done))
  | [], attempts, _, _ => by
    rw [Matcher.tries, List.map_nil, List.append_nil]
    exact .refl
  | a :: before, attempts, hp, hn => by
    have hp' : ∀ r ∈ attempts ++ [(attempt a o).value], r.PlacedAt m.document o :=
      List.forall_mem_append.mpr ⟨hp, List.forall_mem_singleton.mpr (ha a o ho)⟩
    have hrest := reaches_body ho k done rest before _ hp' fun b hb =>
      hn b (List.mem_cons_of_mem a hb)
    rw [List.append_assoc] at hrest
    refine (reaches_resume hsim ha (.body k o (before ++ rest) attempts done)
      (Stage.ok_waiting ho hp) a ?_).trans hrest
    exact if_neg (hn a List.mem_cons_self)

/-- Where the content goes on and no pattern advances, the machine skips the line. -/
def Skips (m : Matcher) (c : Config) (k : Content) (More : Nat → Prop) : Prop :=
  ∀ a attempts done, m.document.IsBoundary a → (∀ r ∈ attempts, r.PlacedAt m.document a) → More a →
    ¬ (k.scope?.isNone ∧ m.document.size ≤ a) ∧
      Reaches m (c.makes (tryBody m k a [] attempts done)) (c.makes (skipAhead m k a attempts done))

/-- A turn in which no pattern of the body advances. -/
theorem reaches_turn {k : Content} (ho : m.document.IsBoundary o)
    (hend : ¬ (k.scope?.isNone ∧ m.document.size ≤ m.skip o true))
    (hn : Matcher.NoneOf (Matcher.advances (m.skip o true)) attempt k.body (m.skip o true))
    (done : List Match) : Reaches m (c.makes (turn m k o done))
      (c.makes (tryBody m k (m.skip o true) [] (Matcher.tries attempt k.body (m.skip o true)) done)) := by
  have hc := (Matcher.passes_skip ho true).isBoundary_right
  have hbody := reaches_body hsim ha hc k done [] k.body [] (by simp) hn
  rw [List.append_nil, List.nil_append] at hbody
  rw [turn, if_neg hend]
  exact hbody

theorem reaches_skipAhead {k : Content} {More : Nat → Prop} (hskips : Skips m c k More)
    (ho : m.document.IsBoundary o) (hmore : More (m.skip o true))
    (hn : Matcher.NoneOf (Matcher.advances (m.skip o true)) attempt k.body (m.skip o true))
    (done : List Match) : Reaches m (c.makes (.loop k o done))
      (c.makes (skipAhead m k (m.skip o true) (Matcher.tries attempt k.body (m.skip o true)) done)) := by
  have hc := (Matcher.passes_skip ho true).isBoundary_right
  obtain ⟨hend, hskip⟩ := hskips _ _ done hc (fun r hr => ha.tries hc k.body hr) hmore
  exact .head (goes_turn ho done) ((reaches_turn hsim ha ho hend hn done).trans hskip)

/-- A turn in which a pattern of the body advances. -/
theorem reaches_item {k : Content} (ho : m.document.IsBoundary o) {r : Match}
    (hf : Matcher.FirstOf (Matcher.advances (m.skip o true)) attempt k.body (m.skip o true) r)
    (done : List Match) :
    Reaches m (c.makes (.loop k o done)) (c.makes (.loop k r.stop (done ++ [r]))) := by
  have hc := Matcher.passes_skip ho true
  obtain ⟨-, hsize, -⟩ := hf.advances ha hc
  obtain ⟨before, a, after, hbody, hbefore, hadv, rfl⟩ := hf
  have hlt := (Matcher.advances_iff.mp hadv).2
  have htries := reaches_body hsim ha hc.isBoundary_right k done (a :: after) before [] (by simp)
    hbefore
  refine .head (goes_turn ho done) ?_
  rw [turn, if_neg (by omega), hbody]
  refine htries.trans (reaches_resume hsim ha (.body k _ after _ done)
    (Stage.ok_waiting hc.isBoundary_right ?_) a (if_pos hadv))
  exact fun r hr => ha.tries hc.isBoundary_right before hr

/-- The machine goes through the content of a scope or of a document, if it does so at the proper
end. -/
theorem reaches_content {k : Content} {Last : Nat → List Match → Prop} {More : Nat → Prop}
    (hlast : ∀ a done rs, m.document.IsBoundary a → Last (m.skip a true) rs →
      Reaches m (c.makes (turn m k a done)) (c.makes (.leave (k.node m true (done ++ rs)))))
    (hskips : Skips m c k More) {rs : List Match} {b : Bool}
    (h : Matcher.ContentRun m attempt k.body Last More o rs b)
    (ho : m.document.IsBoundary o) (done : List Match) :
    Reaches m (c.makes (.loop k o done)) (c.makes (.leave (k.node m b (done ++ rs)))) := by
  induction h generalizing done with
  | @last o rs hl => exact .head (goes_turn ho done) (hlast o done rs ho hl)
  | @item o r rs b hf _ ih =>
    obtain ⟨-, -, hp⟩ := hf.advances ha (Matcher.passes_skip ho true)
    have hrest := ih hp.stop (done ++ [r])
    rw [List.append_assoc] at hrest
    exact (reaches_item hsim ha ho hf done).trans hrest
  | @line o next line rs b hmore hn hs _ ih =>
    have hk := ha.skippedLine (Matcher.passes_skip ho true).isBoundary_right hs
    obtain ⟨-, hnext⟩ := hk.leads _ rfl
    have hrest := ih hnext.isBoundary_right (done ++ [line])
    rw [List.append_assoc] at hrest
    refine (reaches_skipAhead hsim ha hskips ho hmore hn done).trans ?_
    rw [skipAhead, hs]
    exact hrest
  | @lastLine o line hmore hn hs =>
    refine (reaches_skipAhead hsim ha hskips ho hmore hn done).trans ?_
    rw [skipAhead, hs]

theorem reaches_region (id : ItemId) (s : ScopeId) (offset : Nat) {closing : ItemId}
    {body : List ItemId} {rs : List Match} {b : Bool}
    (h : Matcher.RegionRun m attempt closing body o rs b) (ho : m.document.IsBoundary o)
    (done : List Match) :
    Reaches m (c.makes (.loop ⟨id, some (s, closing), body, offset⟩ o done))
      (c.makes (.leave (Content.node m ⟨id, some (s, closing), body, offset⟩ b (done ++ rs)))) := by
  refine reaches_content hsim ha ?_ ?_ h ho done
  · rintro a done rs hab ⟨hn, hm, rfl⟩
    have hc := (Matcher.passes_skip hab true).isBoundary_right
    refine (reaches_turn hsim ha hab (by simp) hn done).trans ?_
    refine reaches_resume hsim ha (.closing _ _ _ done) (Stage.ok_waiting hc ?_) closing (if_pos hm)
    exact fun r hr => ha.tries hc body hr
  · intro a attempts done hab hp hm
    refine ⟨by simp, ?_⟩
    exact reaches_resume hsim ha (.closing _ a attempts done) (Stage.ok_waiting hab hp) closing
      (if_neg hm)

theorem reaches_lines (id : ItemId) (offset : Nat) {body : List ItemId} {rs : List Match} {b : Bool}
    (h : Matcher.LinesRun m attempt body o rs b) (ho : m.document.IsBoundary o) (done : List Match) :
    Reaches m (c.makes (.loop ⟨id, none, body, offset⟩ o done))
      (c.makes (.leave (m.documentNode id offset (done ++ rs)))) := by
  refine reaches_content hsim ha ?_ ?_ h ho done
  · rintro a done rs - ⟨hend, rfl⟩
    rw [turn, if_pos ⟨rfl, hend⟩, List.append_nil]
  · intro a attempts done _ _ hlt
    exact ⟨fun hend => absurd hlt (Nat.not_lt_of_le hend.2), .refl⟩

/-! ### Items -/

omit hsim ha in
theorem enter_word {item : Item} {find : Slice → Option Nat} {x : Bool}
    (h : item.word? = some (find, x)) (id : ItemId) (o : Nat) :
    enter m id o item = .leave (m.matchWord id find x o) := by
  rcases Item.word?_eq_some h with ⟨keyword, rfl, rfl⟩ | ⟨kind, source, program, rfl, rfl⟩
  · rfl
  · rfl

/-- **The machine comes to the outcome of an item.** -/
theorem reaches_outcome {item : Item} {r : Match} (h : Matcher.Outcome m attempt id o item r)
    (ho : m.document.IsBoundary o) :
    Reaches m (c.makes (enter m id o item)) (c.makes (.leave r)) := by
  have hc := (Matcher.passes_skip ho true).isBoundary_right
  cases h with
  | blank hlt => rw [enter, Matcher.matchBlank, if_pos hlt]
  | noBlank hlt => rw [enter, Matcher.matchBlank, if_neg hlt]
  | word hw hn => rw [enter_word hw, Matcher.matchWord, hn]
  | noWord hw hn => rw [enter_word hw, Matcher.matchWord, hn]
  | @sequence es rs b hrun hne =>
    have hrest := reaches_elements hsim ha id o hrun ho []
    rw [List.nil_append, sequenceNode, if_neg (by simpa using hne)] at hrest
    exact hrest
  | emptySequence hrun => exact reaches_elements hsim ha id o hrun ho []
  | alternative hf =>
    obtain ⟨before, a, after, rfl, hbefore, hm, rfl⟩ := hf
    refine (reaches_alternatives hsim ha ho id _ (a :: after) before [] hbefore).trans ?_
    exact reaches_resume hsim ha (.alternation id _ o after _) (Stage.ok_plain rfl ho) a (if_pos hm)
  | @noAlternative p items hn =>
    have hrest := reaches_alternatives hsim ha ho id p [] items [] hn
    rw [List.append_nil, List.nil_append] at hrest
    exact hrest
  | @named name inner =>
    exact reaches_resume hsim ha (.named name o) (Stage.ok_plain rfl ho) inner rfl
  | @noOpening s opening closing body hm =>
    exact reaches_resume hsim ha (.opening ⟨id, some (s, closing), body, o⟩ _)
      (Stage.ok_plain rfl hc) opening (if_neg hm)
  | @scope s opening closing body rs b hm hrun =>
    refine (reaches_resume hsim ha (.opening ⟨id, some (s, closing), body, o⟩ _)
      (Stage.ok_plain rfl hc) opening (if_pos hm)).trans ?_
    exact reaches_region hsim ha id s o hrun (ha opening _ hc).stop _
  | grammar hrun => exact reaches_lines hsim ha id o hrun ho []

end Activation

/-- **A call returns the result of the attempt**, with the counter and the stack as before. -/
theorem simulates_matchAt (m : Matcher) : ∀ (n depth : Nat), depth + n = m.depthLimit →
    Simulates m depth (m.matchAt n)
  | n, depth, h, id, o, stack, calls, results => by
    by_cases ho : m.document.IsBoundary o
    · cases n with
      | zero =>
        rw [Matcher.matchAt_zero ho]
        refine .single (goes_answer ?_ (Or.inr (Or.inr ⟨_, rfl⟩)) rfl rfl fun _ hr => by cases hr)
        rw [step]
        dsimp only
        rw [if_neg (by rw [ho.isNone_sliceAt]; decide), if_pos (by omega)]
      | succ n =>
        rw [Matcher.matchAt_succ ho]
        rcases hitem : m.grammar.item? id with _ | item
        · refine .single (goes_answer ?_ (Or.inr (Or.inr ⟨_, rfl⟩)) rfl rfl fun _ hr => by cases hr)
          rw [step]
          dsimp only
          rw [if_neg (by rw [ho.isNone_sliceAt]; decide), if_neg (by omega), hitem]
        · have hsim := simulates_matchAt m n (depth + 1) (by omega)
          have ha := Matcher.sound_matchAt m n
          have hout := Matcher.outcome_matchStep ha ho id item
          refine .head (goes_enter ho (by dsimp only; omega) hitem rfl) ?_
          refine (reaches_outcome (c := ⟨depth + 1, .idle, stack, calls, results⟩) hsim ha hout
            ho).tail ?_
          exact goes_answer rfl (Or.inr (Or.inr ⟨_, rfl⟩)) rfl rfl fun _ hr => by cases hr
    · rw [Matcher.matchAt_of_not_isBoundary ho]
      refine .single (goes_answer ?_ (Or.inr (Or.inr ⟨_, rfl⟩)) rfl rfl fun _ hr => by cases hr)
      rw [step]
      dsimp only
      rw [if_pos (Document.isNone_sliceAt ho)]

end Machine

end ShaderAssist

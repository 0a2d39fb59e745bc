import ShaderAssist.Proofs.Match.Outcomes

/-!
# Calls

What an item asks of the items that it refers to. A computation that makes attempts follows a script
(`Follows`): as long as the attempts have the same values it makes the same calls in the same order, and
its events are its own and those of the calls, one after the other. So a call is made if and only if its
answer shows in what comes out (`Follows.consults_iff`).

`callsOnly_matchStep` says where the calls of an item are made. They never go back. If the items that are
referred to never match without advancing, then only the items that can come first in an item
(`Item.leading`) are tried where the item itself is tried.
-/

namespace ShaderAssist

/-- Whether an event says that the limit of the depth was met. -/
def Event.isDepthLimit : Event → Bool
  | depthLimit .. => true
  | _ => false

/-- The items of a sequence that are tried while nothing has matched yet. -/
def leadingElements : List SequenceElement → List ItemId
  | [] => []
  | ⟨item, .one⟩ :: _ => [item]
  | ⟨item, _⟩ :: es => item :: leadingElements es

/-- The items that an item may try at the offset where it is tried itself. -/
def Item.leading : Item → List ItemId
  | blank _ | text .. | token .. => []
  | sequence elements => leadingElements elements
  | alternation _ alternatives => alternatives
  | named _ inner => [inner]
  | scope _ opening _ _ => [opening]
  | grammar body => body

namespace Matcher

variable {α β : Type} {attempt : Attempt}

/-! ### Scripts -/

/-- What a computation does: it has an event of its own, or makes a call. -/
inductive Action where
  | event (e : Event)
  | call (id : ItemId) (o : Nat)

/-- The events of a script. -/
def replay (attempt : Attempt) (script : List Action) : List Event :=
  script.flatMap fun
    | .event e => [e]
    | .call id o => (attempt id o).events

/-- Two ways of matching have the same values for the calls of a script. -/
def AgreeOn (other attempt : Attempt) (script : List Action) : Prop :=
  ∀ id o, .call id o ∈ script → (other id o).value = (attempt id o).value

/-- **Following a script.** With the same values for its calls a computation has the same value, and the
events of the script. -/
def Follows (f : Attempt → Traced α) (attempt : Attempt) (script : List Action) : Prop :=
  ∀ other, AgreeOn other attempt script → f other = ⟨(f attempt).value, replay other script⟩

theorem AgreeOn.refl (attempt : Attempt) (script : List Action) : AgreeOn attempt attempt script :=
  fun _ _ _ => rfl

theorem replay_append (attempt : Attempt) (s t : List Action) :
    replay attempt (s ++ t) = replay attempt s ++ replay attempt t := by
  simp [replay]

theorem mem_replay {script : List Action} {e : Event} : e ∈ replay attempt script ↔
    .event e ∈ script ∨ ∃ id o, .call id o ∈ script ∧ e ∈ (attempt id o).events := by
  unfold replay
  rw [List.mem_flatMap]
  constructor
  · rintro ⟨_ | ⟨id, o⟩, ha, he⟩
    · rw [List.mem_singleton.mp he]
      exact Or.inl ha
    · exact Or.inr ⟨id, o, ha, he⟩
  · rintro (h | ⟨id, o, h, he⟩)
    · exact ⟨.event e, h, List.mem_singleton.mpr rfl⟩
    · exact ⟨.call id o, h, he⟩

theorem replay_cons_call (attempt : Attempt) (id : ItemId) (o : Nat) (script : List Action) :
    replay attempt (.call id o :: script) = (attempt id o).events ++ replay attempt script :=
  List.flatMap_cons

theorem replay_congr {other : Attempt} : ∀ {script : List Action},
    (∀ id o, .call id o ∈ script → other id o = attempt id o) →
      replay other script = replay attempt script
  | [], _ => rfl
  | .event e :: script, h =>
    congrArg (e :: ·) (replay_congr fun id o hc => h id o (List.mem_cons_of_mem _ hc))
  | .call id o :: script, h => by
    rw [replay_cons_call, replay_cons_call, h id o List.mem_cons_self,
      replay_congr fun id o hc => h id o (List.mem_cons_of_mem _ hc)]

namespace Follows

variable {f : Attempt → Traced α} {s t : List Action}

theorem events_eq (h : Follows f attempt s) : (f attempt).events = replay attempt s :=
  congrArg Traced.events (h attempt (.refl attempt s))

/-- Nothing but the answers to the calls of a script counts. -/
theorem congr (h : Follows f attempt s) {other : Attempt}
    (hother : ∀ id o, .call id o ∈ s → other id o = attempt id o) : f other = f attempt := by
  have h1 := h other fun id o hc => congrArg Traced.value (hother id o hc)
  have h2 := h attempt (.refl attempt s)
  rw [h1, h2, replay_congr hother]

theorem pure (v : α) : Follows (fun _ => Pure.pure v) attempt [] :=
  fun _ _ => rfl

theorem report (e : Event) : Follows (fun _ => Traced.report e) attempt [.event e] :=
  fun _ _ => rfl

theorem call (id : ItemId) (o : Nat) : Follows (fun a => a id o) attempt [.call id o] := by
  intro other h
  have hv : (other id o).value = (attempt id o).value := h id o (List.mem_singleton.mpr rfl)
  have hr : replay other [.call id o] = (other id o).events := by simp [replay]
  rw [← hv, hr]

/-- One computation after another one. -/
theorem bind {k : Attempt → α → Traced β} (hf : Follows f attempt s)
    (hk : Follows (fun a => k a (f attempt).value) attempt t) :
    Follows (fun a => f a >>= k a) attempt (s ++ t) := by
  intro other h
  have h1 := hf other fun id o hc => h id o (List.mem_append_left t hc)
  have h2 := hk other fun id o hc => h id o (List.mem_append_right s hc)
  change Traced.mk (k other (f other).value).value
    ((f other).events ++ (k other (f other).value).events) = _
  dsimp only at h2
  rw [h1, h2, replay_append]
  rfl

end Follows

/-! ### Calls that are made -/

/-- **A call is made** by a computation: another answer to it can change what comes out, if only the
events. -/
def Consults (f : Attempt → Traced α) (attempt : Attempt) (id : ItemId) (o : Nat) : Prop :=
  ∃ other : Attempt, (∀ id' o', (id', o') ≠ (id, o) → other id' o' = attempt id' o') ∧
    f other ≠ f attempt

/-- The attempts with one more event in the answer to a call. -/
def marked (attempt : Attempt) (id : ItemId) (o : Nat) : Attempt := fun id' o' =>
  if (id', o') = (id, o) then ⟨(attempt id' o').value, .invalidOffset id o :: (attempt id' o').events⟩
  else attempt id' o'

theorem value_marked (id id' : ItemId) (o o' : Nat) :
    (marked attempt id o id' o').value = (attempt id' o').value := by
  unfold marked
  split_ifs <;> rfl

theorem marked_self (id : ItemId) (o : Nat) :
    (marked attempt id o id o).events = .invalidOffset id o :: (attempt id o).events := by
  unfold marked
  rw [if_pos rfl]

theorem length_replay_marked_le (attempt : Attempt) (id : ItemId) (o : Nat) :
    ∀ script : List Action,
      (replay attempt script).length ≤ (replay (marked attempt id o) script).length
  | [] => le_rfl
  | .event _ :: script => Nat.succ_le_succ (length_replay_marked_le attempt id o script)
  | .call id' o' :: script => by
    have hrest := length_replay_marked_le attempt id o script
    have hcall : (attempt id' o').events.length ≤ (marked attempt id o id' o').events.length := by
      unfold marked
      split_ifs
      · exact Nat.le_succ _
      · exact le_rfl
    rw [replay_cons_call, replay_cons_call, List.length_append, List.length_append]
    omega

/-- **The calls of a script are the calls that are made.** -/
theorem Follows.consults_iff {f : Attempt → Traced α} {s : List Action} (h : Follows f attempt s)
    {id : ItemId} {o : Nat} : Consults f attempt id o ↔ .call id o ∈ s := by
  constructor
  · rintro ⟨other, hother, hne⟩
    by_contra hc
    refine hne (h.congr fun id' o' hc' => hother id' o' ?_)
    rintro he
    obtain ⟨rfl, rfl⟩ := Prod.mk.inj he
    exact hc hc'
  · intro hc
    refine ⟨marked attempt id o, fun id' o' hne => if_neg hne, fun he => ?_⟩
    -- the event that was added makes the list of events longer
    obtain ⟨before, after, rfl⟩ := List.append_of_mem hc
    have h1 := h (marked attempt id o) fun id' o' _ => value_marked id id' o o'
    have h2 : (replay (marked attempt id o) (before ++ .call id o :: after)).length =
        (replay attempt (before ++ .call id o :: after)).length := by
      rw [← h.events_eq, ← he, h1]
    have h3 := length_replay_marked_le attempt id o before
    have h4 := length_replay_marked_le attempt id o after
    rw [replay_append, replay_append, replay_cons_call, replay_cons_call, marked_self] at h2
    simp only [List.length_append, List.length_cons] at h2
    omega

/-- A computation makes only calls with a property, and its own events are those of scopes without an end. -/
def CallsOnly (f : Attempt → Traced α) (attempt : Attempt) (P : ItemId → Nat → Prop) : Prop :=
  ∃ script, Follows f attempt script ∧ (∀ e, .event e ∈ script → ∃ o, e = .unterminatedScope o) ∧
    ∀ id o, .call id o ∈ script → P id o

namespace CallsOnly

variable {f g : Attempt → Traced α} {P Q : ItemId → Nat → Prop}

theorem pure (v : α) : CallsOnly (fun _ => Pure.pure v) attempt P :=
  ⟨[], .pure v, by simp, by simp⟩

theorem report (o : Nat) : CallsOnly (fun _ => Traced.report (.unterminatedScope o)) attempt P :=
  ⟨[.event (.unterminatedScope o)], .report _, by simp, by simp⟩

theorem call {id : ItemId} {o : Nat} (h : P id o) : CallsOnly (fun a => a id o) attempt P := by
  refine ⟨[.call id o], .call id o, by simp, fun id' o' hc => ?_⟩
  cases List.mem_singleton.mp hc
  exact h

theorem bind {k : Attempt → α → Traced β} (hf : CallsOnly f attempt P)
    (hk : CallsOnly (fun a => k a (f attempt).value) attempt P) :
    CallsOnly (fun a => f a >>= k a) attempt P := by
  obtain ⟨s, hs, hse, hsc⟩ := hf
  obtain ⟨t, ht, hte, htc⟩ := hk
  refine ⟨s ++ t, hs.bind ht, fun e he => ?_, fun id o hc => ?_⟩
  · rcases List.mem_append.mp he with he | he
    · exact hse e he
    · exact hte e he
  · rcases List.mem_append.mp hc with hc | hc
    · exact hsc id o hc
    · exact htc id o hc

theorem mono (h : CallsOnly f attempt P) (hPQ : ∀ id o, P id o → Q id o) :
    CallsOnly f attempt Q := by
  obtain ⟨s, hs, he, hc⟩ := h
  exact ⟨s, hs, he, fun id o h => hPQ id o (hc id o h)⟩

theorem ite {c : Prop} [Decidable c] (hf : c → CallsOnly f attempt P)
    (hg : ¬ c → CallsOnly g attempt P) :
    CallsOnly (fun a => if c then f a else g a) attempt P := by
  by_cases hc : c
  · simp only [if_pos hc]
    exact hf hc
  · simp only [if_neg hc]
    exact hg hc

end CallsOnly

/-! ### The calls of an item -/

variable {m : Matcher} {o : Nat}

/-- An item never matches without coming past the offset where it is tried. -/
def Advancing (m : Matcher) (attempt : Attempt) (id : ItemId) : Prop :=
  ∀ o, m.document.IsBoundary o → (attempt id o).value.isMatched → o < (attempt id o).value.stop

/-- A call at a boundary that does not lie before `o`. -/
structure CallFrom (m : Matcher) (items : List ItemId) (o : Nat) (id : ItemId) (c : Nat) : Prop where
  mem : id ∈ items
  isBoundary : m.document.IsBoundary c
  le : o ≤ c

theorem CallFrom.of_le {items items' : List ItemId} {o o' c : Nat} {id : ItemId}
    (h : CallFrom m items o id c) (hsub : items ⊆ items') (hle : o' ≤ o) :
    CallFrom m items' o' id c :=
  ⟨hsub h.mem, h.isBoundary, le_trans hle h.le⟩

theorem callsOnly_matchMany (ha : m.Sound attempt) (item : ItemId) (ho : m.document.IsBoundary o) :
    CallsOnly (fun a => matchMany a m.document.size item o) attempt (CallFrom m [item] o) := by
  induction h : m.document.size - o using Nat.strong_induction_on generalizing o with
  | _ n ih =>
  subst h
  have hp := ha item o ho
  have hsize := hp.stop.le_size
  have hle := hp.offset_le
  simp only [matchMany.eq_1 _ m.document.size item o]
  refine .bind (.call ⟨by simp, ho, le_rfl⟩) (.ite (fun _ => .pure _) fun _ => ?_)
  refine .ite (fun hlt => ?_) fun _ => .pure _
  refine .bind ((ih _ (by omega) hp.stop rfl).mono fun id c hc => ?_) (.pure _)
  exact hc.of_le (List.Subset.refl _) hle

theorem stop_matchMany (ha : m.Sound attempt) (item : ItemId) (ho : m.document.IsBoundary o) :
    ∀ r ∈ (matchMany attempt m.document.size item o).value,
      o ≤ r.stop ∧ (m.Advancing attempt item → o < r.stop) := by
  induction h : m.document.size - o using Nat.strong_induction_on generalizing o with
  | _ n ih =>
  subst h
  have hp := ha item o ho
  have hsize := hp.stop.le_size
  have hle := hp.offset_le
  rw [value_matchMany]
  split_ifs with h1 h2
  · intro r hr
    simp at hr
  · intro r hr
    rcases List.mem_cons.mp hr with rfl | hr
    · exact ⟨hle, fun _ => h2.1⟩
    · obtain ⟨h3, -⟩ := ih _ (by omega) hp.stop rfl r hr
      exact ⟨le_trans hle h3, fun _ => lt_of_lt_of_le h2.1 h3⟩
  · intro r hr
    rw [List.mem_singleton.mp hr]
    exact ⟨hle, fun hadv => hadv o ho (by simpa using h1)⟩

/-- The calls of a sequence. As long as nothing has matched the cursor stays where it is. -/
structure CallIn (m : Matcher) (attempt : Attempt) (items leading : List ItemId) (o : Nat)
    (id : ItemId) (c : Nat) : Prop extends CallFrom m items o id c where
  leads : (∀ item ∈ items, m.Advancing attempt item) → c = o → id ∈ leading

theorem CallFrom.behind {items items' leading : List ItemId} {o o' c : Nat} {id : ItemId}
    (h : CallFrom m items' o' id c) (hsub : items' ⊆ items) (hle : o ≤ o')
    (hlt : (∀ item ∈ items, m.Advancing attempt item) → o < o') :
    CallIn m attempt items leading o id c := by
  refine ⟨h.of_le hsub hle, fun hadv hc => ?_⟩
  have h1 := hlt hadv
  have h2 := h.le
  omega

theorem callsOnly_matchElements (ha : m.Sound attempt) : ∀ (es : List SequenceElement) {o : Nat},
    m.document.IsBoundary o → CallsOnly (fun a => matchElements a m.document.size es o) attempt
      (CallIn m attempt (es.map (·.item)) (leadingElements es) o)
  | [], o, _ => by
    simp only [matchElements]
    exact .pure _
  | ⟨item, .one⟩ :: es, o, ho => by
    have hp := ha item o ho
    simp only [matchElements]
    refine .bind (.call ⟨⟨by simp, ho, le_rfl⟩, fun _ _ => by simp [leadingElements]⟩) ?_
    refine .ite (fun hm => ?_) fun _ => .pure _
    refine .bind ((callsOnly_matchElements ha es hp.stop).mono fun id c hc => ?_) (.pure _)
    exact hc.toCallFrom.behind (by simp) hp.offset_le fun hadv => hadv item (by simp) o ho hm
  | ⟨item, .optional⟩ :: es, o, ho => by
    have hp := ha item o ho
    simp only [matchElements]
    refine .bind (.call ⟨⟨by simp, ho, le_rfl⟩, fun _ _ => by simp [leadingElements]⟩) ?_
    refine .ite (fun hm => ?_) fun _ => ?_
    · refine .bind ((callsOnly_matchElements ha es hp.stop).mono fun id c hc => ?_) (.pure _)
      exact hc.toCallFrom.behind (by simp) hp.offset_le fun hadv => hadv item (by simp) o ho hm
    · refine (callsOnly_matchElements ha es ho).mono fun id c hc => ?_
      refine ⟨hc.toCallFrom.of_le (by simp) le_rfl, fun hadv he => ?_⟩
      exact List.mem_cons_of_mem item (hc.leads (fun i hi => hadv i (List.mem_cons_of_mem _ hi)) he)
  | ⟨item, .many⟩ :: es, o, ho => by
    have hp := ha item o ho
    simp only [matchElements]
    refine .bind ((callsOnly_matchMany ha item ho).mono fun id c hc => ?_) (.bind ?_ (.pure _))
    · refine ⟨hc.of_le (by simp) le_rfl, fun _ _ => ?_⟩
      rw [List.mem_singleton.mp hc.mem]
      exact List.mem_cons_self
    -- the elements behind are tried at the same place only if there is no match of this one
    cases hl : (matchMany attempt m.document.size item o).value.getLast? with
    | none =>
      refine (callsOnly_matchElements ha es ho).mono fun id c hc => ?_
      refine ⟨hc.toCallFrom.of_le (by simp) le_rfl, fun hadv he => ?_⟩
      exact List.mem_cons_of_mem item (hc.leads (fun i hi => hadv i (List.mem_cons_of_mem _ hi)) he)
    | some last =>
      have hlast := List.mem_of_getLast? hl
      obtain ⟨hle, hlt⟩ := stop_matchMany ha item ho last hlast
      have hstop := isBoundary_matchMany ha item ho last hlast
      refine (callsOnly_matchElements ha es hstop).mono fun id c hc => ?_
      exact hc.toCallFrom.behind (by simp) hle fun hadv => hlt (hadv item (by simp))

theorem callsOnly_firstAccepted (accept : Match → Bool) :
    ∀ items : List ItemId, CallsOnly (fun a => firstAccepted accept a o items) attempt
      fun id c => id ∈ items ∧ c = o
  | [] => .pure _
  | item :: items => by
    simp only [firstAccepted]
    refine .bind (.call ⟨List.mem_cons_self, rfl⟩) (.ite (fun _ => .pure _) fun _ => ?_)
    refine .bind ((callsOnly_firstAccepted accept items).mono fun id c hc => ?_) ?_
    · exact ⟨List.mem_cons_of_mem item hc.1, hc.2⟩
    · cases (firstAccepted accept attempt o items).value with
      | ok later => exact .pure _
      | error attempts => exact .pure _

theorem callsOnly_matchBody (ho : m.document.IsBoundary o) (body : List ItemId) :
    CallsOnly (fun a => matchBody a body o) attempt (CallFrom m body o) :=
  (callsOnly_firstAccepted _ body).mono fun _ _ hc => ⟨hc.1, hc.2 ▸ ho, hc.2.ge⟩

theorem callsOnly_matchRegion (ha : m.Sound attempt) (closing : ItemId) (body : List ItemId)
    (ho : m.document.IsBoundary o) : CallsOnly (fun a => m.matchRegion a closing body o) attempt
      (CallFrom m (closing :: body) o) := by
  induction h : m.document.size - o using Nat.strong_induction_on generalizing o with
  | _ n ih =>
  subst h
  have hc := passes_skip ho true
  simp only [matchRegion.eq_1 m _ closing body o]
  refine .bind ((callsOnly_matchBody hc.isBoundary_right body).mono fun id c hcall =>
    hcall.of_le (List.subset_cons_self _ _) hc.le) ?_
  rw [matchBody_eq]
  rcases firstAccepted_cases (advances (m.skip o true)) attempt (m.skip o true) body with
    ⟨r, hr, he⟩ | ⟨-, he⟩
  · rw [he]
    obtain ⟨-, -, hp⟩ := hr.advances ha hc
    refine .ite (fun hlt => .bind ((ih _ (by omega) hp.stop rfl).mono fun id c hcall => ?_) (.pure _))
      fun _ => .pure _
    exact hcall.of_le (List.Subset.refl _) hlt.1.le
  · rw [he]
    refine .bind (.call ⟨List.mem_cons_self, hc.isBoundary_right, hc.le⟩) ?_
    refine .ite (fun _ => .pure _) fun _ => ?_
    rcases hs : m.skipLine (m.skip o true) (tries attempt body (m.skip o true)) with ⟨line, _ | next⟩
    · exact .pure _
    · have hk := ha.skippedLine hc.isBoundary_right hs
      have hnext := (hk.leads next rfl).2.isBoundary_right
      refine .ite (fun hlt => .bind ((ih _ (by omega) hnext rfl).mono fun id c hcall => ?_) (.pure _))
        fun _ => .pure _
      exact hcall.of_le (List.Subset.refl _) hlt.1.le

theorem callsOnly_matchLines (ha : m.Sound attempt) (body : List ItemId)
    (ho : m.document.IsBoundary o) :
    CallsOnly (fun a => m.matchLines a body o) attempt (CallFrom m body o) := by
  induction h : m.document.size - o using Nat.strong_induction_on generalizing o with
  | _ n ih =>
  subst h
  have hc := passes_skip ho true
  simp only [matchLines.eq_1 m _ body o]
  refine .ite (fun _ => .pure _) fun _ => ?_
  refine .bind ((callsOnly_matchBody hc.isBoundary_right body).mono fun id c hcall =>
    hcall.of_le (List.Subset.refl _) hc.le) ?_
  rw [matchBody_eq]
  rcases firstAccepted_cases (advances (m.skip o true)) attempt (m.skip o true) body with
    ⟨r, hr, he⟩ | ⟨-, he⟩
  · rw [he]
    obtain ⟨-, -, hp⟩ := hr.advances ha hc
    refine .ite (fun hlt => .bind ((ih _ (by omega) hp.stop rfl).mono fun id c hcall => ?_) (.pure _))
      fun _ => .pure _
    exact hcall.of_le (List.Subset.refl _) hlt.1.le
  · rw [he]
    rcases hs : m.skipLine (m.skip o true) (tries attempt body (m.skip o true)) with ⟨line, _ | next⟩
    · simp only [hs]
      exact .pure _
    · have hk := ha.skippedLine hc.isBoundary_right hs
      have hnext := (hk.leads next rfl).2.isBoundary_right
      simp only [hs]
      refine .ite (fun hlt => .bind ((ih _ (by omega) hnext rfl).mono fun id c hcall => ?_) (.pure _))
        fun _ => .pure _
      exact hcall.of_le (List.Subset.refl _) hlt.1.le

/-- **The calls of an item.** They are made for the items that it refers to, at boundaries that do not
lie before the offset where the item is tried. If all these items advance, only the leading ones are tried
at the same offset. -/
theorem callsOnly_matchStep (ha : m.Sound attempt) (ho : m.document.IsBoundary o) (id : ItemId)
    (item : Item) : CallsOnly (fun a => m.matchStep a id item o) attempt
      (CallIn m attempt item.references item.leading o) := by
  have hc := passes_skip ho true
  cases item with
  | blank c => exact .pure _
  | text keyword c => exact .pure _
  | token kind source program c => exact .pure _
  | sequence es =>
    refine .bind (callsOnly_matchElements ha es ho) ?_
    rcases (matchElements attempt m.document.size es o).value with ⟨children, complete⟩
    exact .ite (fun _ => .pure _) fun _ => .pure _
  | alternation p items =>
    refine .bind ((callsOnly_firstAccepted _ items).mono fun id c hcall => ?_) (.pure _)
    exact ⟨⟨hcall.1, hcall.2 ▸ ho, hcall.2.ge⟩, fun _ _ => hcall.1⟩
  | named name inner =>
    refine .bind (.call ?_) (.pure _)
    exact ⟨⟨List.mem_singleton.mpr rfl, ho, le_rfl⟩, fun _ _ => List.mem_singleton.mpr rfl⟩
  | scope s opening closing body =>
    have hp := ha opening _ hc.isBoundary_right
    refine .bind (.call ?_) (.ite (fun _ => .pure _) fun hm => ?_)
    · exact ⟨⟨List.mem_cons_self, hc.isBoundary_right, hc.le⟩, fun _ _ => List.mem_singleton.mpr rfl⟩
    · -- the content comes behind the opening delimiter
      refine .bind ((callsOnly_matchRegion ha closing body hp.stop).mono fun id c hcall => ?_) ?_
      · refine hcall.behind (List.subset_cons_self _ _) (le_trans hc.le hp.offset_le) fun hadv => ?_
        exact lt_of_le_of_lt hc.le
          (hadv opening List.mem_cons_self _ hc.isBoundary_right (by simpa using hm))
      · rcases (m.matchRegion attempt closing body
          (attempt opening (m.skip o true)).value.stop).value with ⟨rest, closed⟩
        exact .ite (fun _ => .bind (.report o) (.pure _)) fun _ => .pure _
  | grammar body =>
    refine .bind ((callsOnly_matchLines ha body ho).mono fun id c hcall => ?_) ?_
    · exact ⟨hcall, fun _ _ => hcall.mem⟩
    · rcases (m.matchLines attempt body o).value with ⟨children, complete⟩
      exact .pure _

end Matcher

end ShaderAssist

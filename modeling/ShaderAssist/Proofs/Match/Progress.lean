import ShaderAssist.Proofs.Match.Machine

/-!
# Progress of the matching machine

Inside an item, every attempt and every turn of a loop comes nearer to the end of the text, or there is
less left to try at the same place (`Stage.rank`). A loop over the content of a scope or of a document
comes back to its head only behind the place where it last was.

`next_resume` and `next_turn` say this of what an item does after an attempt and of a turn of a loop. An
item inside another one is entered one level deeper, so that the depth that is left goes first in the
order (`measure`).
-/

namespace ShaderAssist

namespace Machine

/-- Where an item stands between two of its moves. -/
inductive Stage where
  /-- It waits for an attempt. -/
  | waiting (frame : Frame)
  /-- It is at the head of a loop. -/
  | head (content : Content) (cursor : Nat)
  /-- It has its result. -/
  | finished

/-- The elements or patterns that are left to try at one place, with the one under way. -/
def Frame.remaining : Frame → Nat
  | sequence _ _ _ _ rest _ => rest.length + 1
  | alternation _ _ _ rest _ => rest.length + 1
  | named .. => 1
  | opening k _ => k.body.length + 3
  | body _ _ rest _ _ => rest.length + 2
  | closing .. => 1

/-- The attempts that failed in a turn of a loop. -/
def Frame.attempts : Frame → List Match
  | body _ _ _ attempts _ => attempts
  | closing _ _ attempts _ => attempts
  | _ => []

namespace Stage

/-- Whether the item is in a loop over the content of a scope or of a document. -/
def inLoop : Stage → Bool
  | waiting (.body ..) | waiting (.closing ..) | head .. => true
  | waiting _ | finished => false

/-- The elements or patterns that are left to try before the cursor moves on. -/
def remaining : Stage → Nat
  | waiting f => f.remaining
  | head k _ => k.body.length + 2
  | finished => 0

variable (m : Matcher)

/-- How far the item has come. -/
def cursor : Stage → Nat
  | waiting f => f.cursor
  | head _ cursor => cursor
  | finished => m.document.size

/-- The distance to the end of the text, and what is left to try at this place. -/
def rank (s : Stage) : ℕ ×ₗ ℕ :=
  toLex (m.document.size - s.cursor m, s.remaining)

/-- The failed attempts of a loop were made at the cursor, which is in the text. -/
structure Ok (s : Stage) : Prop where
  cursor : m.document.IsBoundary (s.cursor m)
  attempts : ∀ f, s = waiting f → ∀ r ∈ f.attempts, r.PlacedAt m.document f.cursor

/-- The stage `t` may come after the stage `s` of the same item. -/
structure Next (s t : Stage) : Prop where
  ok : t.Ok m
  cursor_le : s.cursor m ≤ t.cursor m
  less : s.cursor m < t.cursor m ∨ t.remaining < s.remaining
  head_lt : s.inLoop → ∀ k b, t = head k b → s.cursor m < b

end Stage

/-- The stage at which a move leaves its item. -/
def Move.stage : Move → Stage
  | call frame _ => .waiting frame
  | loop k cursor _ => .head k cursor
  | leave _ => .finished

variable {m : Matcher} {s t : Stage} {f : Frame} {k : Content} {r : Match} {c : Nat}

/-- **The rank decreases** from stage to stage. -/
theorem Stage.Next.rank_lt (h : s.Next m t) : t.rank m < s.rank m := by
  have h1 := h.cursor_le
  have h2 := h.ok.cursor.le_size
  have h3 := h.less
  unfold rank
  rw [Prod.Lex.toLex_lt_toLex]
  dsimp only
  omega

/-! ### Moves of an item -/

theorem Stage.ok_finished : Stage.finished.Ok m :=
  ⟨m.document.restAt_size.isBoundary, fun _ h => by cases h⟩

theorem Stage.ok_head (hc : m.document.IsBoundary c) : (head k c).Ok m :=
  ⟨hc, fun _ h => by cases h⟩

theorem Stage.ok_waiting (hc : m.document.IsBoundary f.cursor)
    (h : ∀ r ∈ f.attempts, r.PlacedAt m.document f.cursor) : (waiting f).Ok m :=
  ⟨hc, fun g hg => by cases hg; exact h⟩

theorem Stage.ok_plain (hf : f.attempts = []) (hc : m.document.IsBoundary f.cursor) :
    (waiting f).Ok m :=
  ok_waiting hc fun r hr => by simp [hf] at hr

theorem Frame.remaining_pos (f : Frame) : 0 < f.remaining := by
  cases f <;> exact Nat.succ_pos _

theorem next_finished (hs : s.Ok m) (h : 0 < s.remaining) : s.Next m .finished :=
  ⟨Stage.ok_finished, hs.cursor.le_size, Or.inr h, fun _ _ _ h => by cases h⟩

theorem next_tryElements (hs : s.Ok m) (hc : m.document.IsBoundary c) (hle : s.cursor m ≤ c)
    {es : List SequenceElement} (h : s.cursor m < c ∨ es.length < s.remaining)
    (hpos : 0 < s.remaining) (id : ItemId) (o : Nat) (done : List Match) :
    s.Next m (tryElements id o c es done).stage := by
  cases es with
  | nil => exact next_finished hs hpos
  | cons e es =>
    exact ⟨Stage.ok_plain rfl hc, hle, h, fun _ _ _ h => by cases h⟩

theorem next_tryAlternatives (hs : s.Ok m) {as : List ItemId} (h : as.length < s.remaining)
    (id : ItemId) (p : PatternId) (attempts : List Match) :
    s.Next m (tryAlternatives id p (s.cursor m) as attempts).stage := by
  cases as with
  | nil => exact next_finished hs h
  | cons a as =>
    exact ⟨Stage.ok_plain rfl hs.cursor, le_rfl, Or.inr h, fun _ _ _ h => by cases h⟩

/-- After a skipped line the loop goes on behind its cursor. -/
theorem next_skipAhead (hs : s.Ok m) (hpos : 0 < s.remaining) (hc : m.document.IsBoundary c)
    (hle : s.cursor m ≤ c) {attempts : List Match}
    (ha : ∀ r ∈ attempts, r.PlacedAt m.document c) (k : Content) (done : List Match) :
    s.Next m (skipAhead m k c attempts done).stage := by
  have hk := Matcher.skippedLine_skipLine (m := m)
    (Match.isBoundary_furthest hc fun r hr => (ha r hr).stop)
  unfold skipAhead
  rcases hl : m.skipLine c attempts with ⟨line, _ | next⟩
  · exact next_finished hs hpos
  · rw [hl] at hk
    obtain ⟨hlt, hnext⟩ := hk.leads next rfl
    have hlt : s.cursor m < next := lt_of_le_of_lt (le_trans hle hk.offset_le) hlt
    exact ⟨Stage.ok_head hnext.isBoundary_right, hlt.le, Or.inl hlt,
      fun _ _ _ h => by cases h; exact hlt⟩

theorem next_tryBody (hs : s.Ok m) (hc : m.document.IsBoundary c) (hle : s.cursor m ≤ c)
    {ps : List ItemId} (h : ps.length + 1 < s.remaining) {attempts : List Match}
    (ha : ∀ r ∈ attempts, r.PlacedAt m.document c) (k : Content) (done : List Match) :
    s.Next m (tryBody m k c ps attempts done).stage := by
  cases ps with
  | cons p ps =>
    exact ⟨Stage.ok_waiting hc ha, hle, Or.inr h, fun _ _ _ h => by cases h⟩
  | nil =>
    unfold tryBody
    rcases k.scope? with _ | ⟨s', closing⟩
    · exact next_skipAhead hs (Nat.zero_lt_of_lt h) hc hle ha k done
    · exact ⟨Stage.ok_waiting hc ha, hle, Or.inr h, fun _ _ _ h => by cases h⟩

/-- **After an attempt** an item comes to a next stage. -/
theorem next_resume (hf : (Stage.waiting f).Ok m) (hr : r.PlacedAt m.document f.cursor) :
    (Stage.waiting f).Next m (resume m r f).stage := by
  have hstop := hr.offset_le
  have hpos := f.remaining_pos
  cases f with
  | sequence id o cursor e es done =>
    rw [resume]
    split_ifs with h1 h2 h3
    · exact next_tryElements hf hr.stop hstop (Or.inl h2.2) hpos id o _
    · exact next_tryElements hf hr.stop hstop (Or.inr (Nat.lt_succ_self _)) hpos id o _
    · exact next_finished hf hpos
    · exact next_tryElements hf hf.cursor le_rfl (Or.inr (Nat.lt_succ_self _)) hpos id o _
  | alternation id p cursor as attempts =>
    rw [resume]
    split_ifs with h1
    · exact next_finished hf hpos
    · exact next_tryAlternatives hf (Nat.lt_succ_self _) id p _
  | named name cursor => exact next_finished hf hpos
  | opening k cursor =>
    rw [resume]
    split_ifs with h1
    · exact ⟨Stage.ok_head hr.stop, hstop, Or.inr (Nat.lt_succ_self _), fun h => by cases h⟩
    · exact next_finished hf hpos
  | body k cursor ps attempts done =>
    rw [resume]
    split_ifs with h1
    · have hlt : cursor < r.stop := (Matcher.advances_iff.mp h1).2
      exact ⟨Stage.ok_head hr.stop, hstop, Or.inl hlt, fun _ _ _ h => by cases h; exact hlt⟩
    · refine next_tryBody hf hf.cursor le_rfl (Nat.lt_succ_self _) ?_ k done
      exact List.forall_mem_append.mpr ⟨hf.attempts _ rfl, List.forall_mem_singleton.mpr hr⟩
  | closing k cursor attempts done =>
    rw [resume]
    split_ifs with h1
    · exact next_finished hf hpos
    · exact next_skipAhead hf hpos hf.cursor le_rfl (hf.attempts _ rfl) k done

/-- **A turn of a loop** comes to a next stage. -/
theorem next_turn (hc : m.document.IsBoundary c) (k : Content) (done : List Match) :
    (Stage.head k c).Next m (turn m k c done).stage := by
  have hskip := Matcher.passes_skip hc true
  unfold turn
  split_ifs with h
  · exact next_finished (Stage.ok_head hc) (Nat.succ_pos _)
  · exact next_tryBody (Stage.ok_head hc) hskip.isBoundary_right hskip.le (Nat.lt_succ_self _)
      (by simp) k done

/-- What an item does first, it does in the text. -/
theorem ok_enter (hc : m.document.IsBoundary c) (id : ItemId) (item : Item) :
    (enter m id c item).stage.Ok m := by
  cases item with
  | blank | text | token => exact Stage.ok_finished
  | sequence es => cases es with
    | nil => exact Stage.ok_finished
    | cons e es => exact Stage.ok_plain rfl hc
  | alternation p as => cases as with
    | nil => exact Stage.ok_finished
    | cons a as => exact Stage.ok_plain rfl hc
  | named => exact Stage.ok_plain rfl hc
  | scope => exact Stage.ok_plain rfl (Matcher.passes_skip hc true).isBoundary_right
  | grammar => exact Stage.ok_head hc

end Machine

end ShaderAssist

import Mathlib.Data.Prod.Lex
import Mathlib.Logic.Relation
import ShaderAssist.Proofs.Match.Outcomes

/-!
# The matching machine

Matching step by step, with one counter for the depth and a stack of what is left to do inside the items
that are under way. The counter goes up by one when an item is entered and down by one when it is left,
whatever became of the item. A machine works off a list of calls one after the other, without being set
up again in between.

The stack and the counter always agree (`Balanced.step`).
-/

namespace ShaderAssist

namespace Machine

/-- The loop over the content of a scope or of a document that was entered at an offset. -/
structure Content where
  id : ItemId
  /-- The scope and its closing delimiter; none for a document. -/
  scope? : Option (ScopeId × ItemId)
  body : List ItemId
  offset : Nat

/-- What is left to do inside an item after the attempt that is under way. The attempt is made at the
cursor of the frame. -/
inductive Frame where
  /-- An element of a sequence was tried; `rest` comes behind it. -/
  | sequence (id : ItemId) (offset cursor : Nat) (element : SequenceElement)
    (rest : List SequenceElement) (done : List Match)
  /-- An alternative of a pattern was tried; `rest` comes behind it. -/
  | alternation (id : ItemId) (pattern : PatternId) (cursor : Nat) (rest : List ItemId)
    (attempts : List Match)
  /-- The inner item under a name was tried. -/
  | named (name : String) (cursor : Nat)
  /-- The opening delimiter of a scope was tried. -/
  | opening (content : Content) (cursor : Nat)
  /-- A pattern of a body was tried; `rest` comes behind it. -/
  | body (content : Content) (cursor : Nat) (rest : List ItemId) (attempts done : List Match)
  /-- The closing delimiter of a scope was tried. -/
  | closing (content : Content) (cursor : Nat) (attempts done : List Match)

/-- What an item does next. -/
inductive Move where
  /-- It tries an item at the cursor of the frame that is left. -/
  | call (frame : Frame) (id : ItemId)
  /-- It goes through a loop, the content from the cursor on. -/
  | loop (content : Content) (cursor : Nat) (done : List Match)
  /-- It has its result. -/
  | leave (result : Match)

/-- What a machine is about to do. -/
inductive Control where
  | idle
  | call (id : ItemId) (offset : Nat)
  | loop (content : Content) (cursor : Nat) (done : List Match)
  | leave (result : Match)
  | ret (result : Match)

/-- The state of a machine. -/
structure Config where
  depth : Nat
  control : Control
  stack : List Frame
  calls : List (ItemId × Nat)
  results : List Match

/-- Where the attempt is made that a frame waits for. -/
def Frame.cursor : Frame → Nat
  | sequence _ _ cursor _ _ _ => cursor
  | alternation _ _ cursor _ _ => cursor
  | named _ cursor => cursor
  | opening _ cursor => cursor
  | body _ cursor _ _ _ => cursor
  | closing _ cursor _ _ => cursor

/-! ### Steps -/

/-- The node of a sequence with the results of its elements. -/
def sequenceNode (id : ItemId) (offset : Nat) (complete : Bool) (rs : List Match) : Match :=
  if rs.isEmpty then .leaf id .unmatched offset offset
  else .ofChildren (some id) (Matcher.kindOf complete) offset rs

def tryElements (id : ItemId) (offset cursor : Nat) : List SequenceElement → List Match → Move
  | [], done => .leave (sequenceNode id offset true done)
  | e :: es, done => .call (.sequence id offset cursor e es done) e.item

def tryAlternatives (id : ItemId) (p : PatternId) (cursor : Nat) : List ItemId → List Match → Move
  | [], attempts =>
    .leave ((Match.ofChildren (some id) .unmatchedPattern cursor attempts).withOrigin (.pattern p))
  | a :: as, attempts => .call (.alternation id p cursor as attempts) a

variable (m : Matcher)

/-- The node of a scope or of a document with its pieces. -/
def Content.node (k : Content) (complete : Bool) (rs : List Match) : Match :=
  match k.scope? with
  | some (s, _) =>
    (Match.ofChildren (some k.id) (Matcher.kindOf complete) k.offset rs).withOrigin (.scope s)
  | none => m.documentNode k.id k.offset rs

def skipAhead (k : Content) (cursor : Nat) (attempts done : List Match) : Move :=
  match m.skipLine cursor attempts with
  | (line, some next) => .loop k next (done ++ [line])
  | (line, none) => .leave (k.node m false (done ++ [line]))

def tryBody (k : Content) (cursor : Nat) : List ItemId → List Match → List Match → Move
  | p :: ps, attempts, done => .call (.body k cursor ps attempts done) p
  | [], attempts, done => match k.scope? with
    | some (_, closing) => .call (.closing k cursor attempts done) closing
    | none => skipAhead m k cursor attempts done

/-- One turn of a loop. -/
def turn (k : Content) (cursor : Nat) (done : List Match) : Move :=
  if k.scope?.isNone ∧ m.document.size ≤ m.skip cursor true then .leave (k.node m true done)
  else tryBody m k (m.skip cursor true) k.body [] done

/-- What an item does first. -/
def enter (id : ItemId) (offset : Nat) : Item → Move
  | .blank c => .leave (m.matchBlank id c offset)
  | .text keyword c => .leave (m.matchWord id keyword.matchLength? c offset)
  | .token _ _ finder c => .leave (m.matchWord id finder.matchLength? c offset)
  | .sequence es => tryElements id offset offset es []
  | .alternation p as => tryAlternatives id p offset as []
  | .named name inner => .call (.named name offset) inner
  | .scope s opening closing body =>
    .call (.opening ⟨id, some (s, closing), body, offset⟩ (m.skip offset true)) opening
  | .grammar body => .loop ⟨id, none, body, offset⟩ offset []

/-- What an item does after an attempt. -/
def resume (r : Match) : Frame → Move
  | .sequence id offset cursor e es done =>
    if r.isMatched then
      tryElements id offset r.stop
        (if e.multiplicity = .many ∧ cursor < r.stop then e :: es else es) (done ++ [r])
    else if e.multiplicity = .one then .leave (sequenceNode id offset false (done ++ [r]))
    else tryElements id offset cursor es done
  | .alternation id p cursor as attempts =>
    if r.isMatched then
      .leave ((Match.ofChildren (some id) .matched cursor [r]).withOrigin (.pattern p))
    else tryAlternatives id p cursor as (attempts ++ [r])
  | .named name _ => .leave (r.withName name)
  | .opening k _ => if r.isMatched then .loop k r.stop [r] else .leave (k.node m false [r])
  | .body k cursor ps attempts done =>
    if Matcher.advances cursor r then .loop k r.stop (done ++ [r])
    else tryBody m k cursor ps (attempts ++ [r]) done
  | .closing k cursor attempts done =>
    if r.isMatched then .leave (k.node m true (done ++ [r]))
    else skipAhead m k cursor attempts done

/-- A machine whose innermost item makes a move, at a depth and over a stack. -/
def Config.move (c : Config) (depth : Nat) (stack : List Frame) : Move → Config
  | .call frame id =>
    { c with depth := depth, control := .call id frame.cursor, stack := frame :: stack }
  | .loop k cursor done => { c with depth := depth, control := .loop k cursor done, stack := stack }
  | .leave r => { c with depth := depth, control := .leave r, stack := stack }

/-- **One step of the machine**; none if all calls are worked off. -/
def step (c : Config) : Option Config :=
  match c.control with
  | .idle => match c.calls with
    | [] => none
    | (id, offset) :: calls => some { c with control := .call id offset, calls := calls }
  | .call id offset =>
    if (m.document.sliceAt offset).isNone then
      some { c with control := .ret (.leaf id .unmatched (min offset m.document.size)
        (min offset m.document.size)) }
    else if m.depthLimit ≤ c.depth then
      some { c with control := .ret (.leaf id .unmatched offset offset) }
    else match m.grammar.item? id with
      | some item => some (c.move (c.depth + 1) c.stack (enter m id offset item))
      | none => some { c with control := .ret (.leaf id .unmatched offset offset) }
  | .loop k cursor done => some (c.move c.depth c.stack (turn m k cursor done))
  | .leave r => some { c with depth := c.depth - 1, control := .ret r }
  | .ret r => match c.stack with
    | [] => some { c with control := .idle, results := c.results ++ [r] }
    | frame :: stack => some (c.move c.depth stack (resume m r frame))

/-- The machine comes from a state to another one. -/
def Runs : Config → Config → Prop :=
  Relation.ReflTransGen fun c c' => step m c = some c'

/-- A machine with some calls to work off. -/
def Config.ofCalls (calls : List (ItemId × Nat)) : Config :=
  ⟨0, .idle, [], calls, []⟩

/-! ### The counter -/

/-- The items that are under way and not on the stack. -/
def Control.active : Control → Nat
  | loop .. | leave _ => 1
  | idle | call .. | ret _ => 0

/-- The counter says how many items are under way, and it keeps to its limit. -/
structure Balanced (c : Config) : Prop where
  depth : c.depth = c.stack.length + c.control.active
  limit : c.depth ≤ m.depthLimit
  idle : c.control = .idle → c.stack = []

variable {m} {c c' : Config}

theorem balanced_move {depth : Nat} {stack : List Frame} (h : depth = stack.length + 1)
    (hlimit : depth ≤ m.depthLimit) (mv : Move) : Balanced m (c.move depth stack mv) := by
  cases mv with
  | call frame id => exact ⟨h, hlimit, fun hi => by cases hi⟩
  | loop k cursor done => exact ⟨h, hlimit, fun hi => by cases hi⟩
  | leave r => exact ⟨h, hlimit, fun hi => by cases hi⟩

/-- A machine that waits for or has a result, over the same stack. -/
theorem Balanced.control (h : Balanced m c) (hc : c.control.active = 0) {e : Control}
    (he : e.active = 0) (hi : e ≠ .idle) (calls : List (ItemId × Nat)) :
    Balanced m { c with control := e, calls := calls } := by
  have hd := h.depth
  rw [hc] at hd
  exact ⟨by rw [he]; exact hd, h.limit, fun h => absurd h hi⟩

/-- **A step keeps the counter and the stack in balance.** -/
theorem Balanced.step (h : Balanced m c) (hs : Machine.step m c = some c') : Balanced m c' := by
  obtain ⟨depth, control, stack, calls, results⟩ := c
  have hd := h.depth
  have hl := h.limit
  cases control with
  | idle =>
    rcases calls with _ | ⟨⟨id, o⟩, calls⟩
    · cases hs
    · obtain rfl := Option.some.inj hs
      exact h.control rfl rfl (by simp) calls
  | call id o =>
    simp only [Machine.step] at hs
    split_ifs at hs with h1 h2
    · obtain rfl := Option.some.inj hs
      exact h.control rfl rfl (by simp) calls
    · obtain rfl := Option.some.inj hs
      exact h.control rfl rfl (by simp) calls
    · cases hi : m.grammar.item? id with
      | none =>
        rw [hi] at hs
        obtain rfl := Option.some.inj hs
        exact h.control rfl rfl (by simp) calls
      | some item =>
        rw [hi] at hs
        obtain rfl := Option.some.inj hs
        exact balanced_move (congrArg (· + 1) hd) (Nat.lt_of_not_le h2) _
  | loop k cursor done =>
    obtain rfl := Option.some.inj hs
    exact balanced_move hd hl _
  | leave r =>
    obtain rfl := Option.some.inj hs
    exact ⟨congrArg (· - 1) hd, le_trans (Nat.sub_le depth 1) hl, fun hi => by cases hi⟩
  | ret r =>
    rcases stack with _ | ⟨frame, stack⟩
    · obtain rfl := Option.some.inj hs
      exact ⟨hd, hl, fun _ => rfl⟩
    · obtain rfl := Option.some.inj hs
      exact balanced_move hd hl _

theorem balanced_ofCalls (calls : List (ItemId × Nat)) : Balanced m (.ofCalls calls) :=
  ⟨rfl, Nat.zero_le _, fun _ => rfl⟩

theorem Balanced.runs (h : Balanced m c) (hr : Runs m c c') : Balanced m c' := by
  induction hr with
  | refl => exact h
  | tail _ hs ih => exact ih.step hs

end Machine

end ShaderAssist

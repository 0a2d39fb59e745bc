import ShaderAssist.Grammar.Compile
import ShaderAssist.Text.Document

/-!
# Events

What is worth a line in a log, in order of happening. A computation that has events answers with its
value and the list of them; it never reads them back, so its value does not depend on them.
-/

namespace ShaderAssist

/-- How serious an event is. -/
inductive LogLevel where
  | error
  | warn
  | debug
deriving DecidableEq, Repr, Inhabited

/-- Something that happened. -/
inductive Event where
  /-- A grammar was compiled to so many items, patterns and scopes. -/
  | compiled (name : Option String) (items patterns scopes : Nat)
  /-- An item was tried at an offset that is no boundary of the text. -/
  | invalidOffset (item : ItemId) (offset : Nat)
  /-- An item was tried at a depth that is not allowed. -/
  | depthLimit (limit offset : Nat)
  /-- A scope that was tried at an offset has no end. -/
  | unterminatedScope (offset : Nat)
  /-- Completion at a position had so many items. -/
  | completed (position : Position) (count : Nat)
deriving DecidableEq, Repr

namespace Event

/-- How serious an event is. -/
def level : Event → LogLevel
  | compiled .. => .debug
  | invalidOffset .. => .error
  | depthLimit .. => .warn
  | unterminatedScope .. => .debug
  | completed .. => .debug

/-- The line of an event in a log about a document. -/
def message (d : Document) : Event → String
  | compiled name items patterns scopes =>
    s!"Compiled grammar {quoteOption name}: {items} items, {patterns} patterns, {scopes} scopes"
  | invalidOffset item offset =>
    s!"Trying to match PatternItemId({item.index}) at invalid offset {offset}"
  | depthLimit limit offset =>
    s!"Reached depth limit of {limit} while matching at {(d.positionAt offset).describe}"
  | unterminatedScope offset =>
    s!"Scope at {(d.positionAt offset).describe} is not terminated"
  | completed position count =>
    s!"Completion at {position.describe} returned {count} items"

end Event

/-- The event of a compiled grammar. -/
def CompiledGrammar.event (g : CompiledGrammar) : Event :=
  .compiled g.name g.items.size g.patterns.size g.scopes.size

/-- A value with the events on the way to it. -/
structure Traced (α : Type) where
  value : α
  events : List Event := []
deriving Inhabited

namespace Traced

variable {α β : Type}

instance : Monad Traced where
  pure a := ⟨a, []⟩
  bind t f :=
    let r := f t.value
    ⟨r.value, t.events ++ r.events⟩

/-- An event. -/
def report (e : Event) : Traced Unit :=
  ⟨(), [e]⟩

@[simp]
theorem value_pure (a : α) : (pure a : Traced α).value = a := rfl

@[simp]
theorem value_bind (t : Traced α) (f : α → Traced β) :
    (t >>= f).value = (f t.value).value := rfl

@[simp]
theorem value_map (f : α → β) (t : Traced α) : (f <$> t).value = f t.value := rfl

end Traced

end ShaderAssist

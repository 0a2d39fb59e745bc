import ShaderAssist.Regex.Program
import ShaderAssist.Text.Slice

/-!
# Matching

A program is matched at the start of a slice by following all ways through it at once, one character
after the other. The ways are kept in order of preference, and no instruction is followed twice at
one place: a way that meets an instruction again is less preferred than the one that met it before
and could not end otherwise. Where a way accepts, all ways behind it are given up. The last place
where a way accepted is the end of the match, so the time is bounded by the size of the program times
the length of the match.
-/

namespace ShaderAssist

/-- A place in a text: the character before it, none at the start, and what is left. -/
structure Spot where
  before : Option Char
  rest : List Char

namespace Spot

/-- Whether the character before the place is a word character. -/
def afterWord (s : Spot) : Bool :=
  s.before.any isWordChar

/-- Whether the character after the place is a word character. -/
def beforeWord (s : Spot) : Bool :=
  s.rest.head?.any isWordChar

/-- Whether a condition holds at a place. -/
def satisfies (s : Spot) : Assertion → Bool
  | .textStart => s.before.isNone
  | .textEnd => s.rest.isEmpty
  | .lineStart => s.before.all (· == '\n')
  | .lineEnd => s.rest.head?.all (· == '\n')
  | .wordBoundary => s.afterWord != s.beforeWord
  | .noWordBoundary => s.afterWord == s.beforeWord
  | .wordStart => !s.afterWord && s.beforeWord
  | .wordEnd => s.afterWord && !s.beforeWord
  | .wordStartHalf => !s.afterWord
  | .wordEndHalf => !s.beforeWord

end Spot

namespace Program

/-- The ways on from a place: which characters lead to which instruction, the preferred first, and
whether a way accepts behind all of them. -/
structure Front where
  steps : List (CharSet × Nat)
  accepted : Bool

/-- Follows instructions that read nothing. `pending` holds those still to be followed, in order of
preference, `seen` marks those followed before, and `steps` are the ways found, in reverse. Every
instruction leads to at most two others and is followed once, which bounds the steps. -/
def advance (p : Program) (spot : Spot) :
    Nat → List Nat → Array Bool → List (CharSet × Nat) → Front
  | 0, _, _, steps => ⟨steps.reverse, false⟩
  | _ + 1, [], _, steps => ⟨steps.reverse, false⟩
  | n + 1, i :: pending, seen, steps =>
    match seen[i]?, p.code[i]? with
    | some false, some instruction =>
      let seen := seen.setIfInBounds i true
      match instruction with
      | .take s next => p.advance spot n pending seen ((s, next) :: steps)
      | .check a next =>
        if spot.satisfies a then p.advance spot n (next :: pending) seen steps
        else p.advance spot n pending seen steps
      | .fork first second => p.advance spot n (first :: second :: pending) seen steps
      | .accept => ⟨steps.reverse, true⟩
    | _, _ => p.advance spot n pending seen steps

/-- The ways on from a place for some instructions, the preferred first. -/
def front (p : Program) (spot : Spot) (pending : List Nat) : Front :=
  p.advance spot (pending.length + 2 * p.code.size + 1) pending
    (Array.replicate p.code.size false) []

/-- The instructions that a character leads to. -/
def Front.after (f : Front) (c : Char) : List Nat :=
  f.steps.filterMap fun step => if step.1.contains c then some step.2 else none

/-- Number of bytes from the start of the text to the end of the match. `read` is the number of bytes
before `rest`, and `best` the end that was found among them. -/
def search (p : Program) (before : Option Char) (pending : List Nat) (read : Nat)
    (best : Option Nat) : List Char → Option Nat
  | [] => if (p.front ⟨before, []⟩ pending).accepted then some read else best
  | c :: rest =>
    let front := p.front ⟨before, c :: rest⟩ pending
    let best := if front.accepted then some read else best
    match front.after c with
    | [] => best
    | pending => p.search (some c) pending (read + c.utf8Size) best rest

/-- **Number of bytes that a program matches at the start of a slice.** -/
def matchLength? (p : Program) (s : Slice) : Option Nat :=
  p.search none [p.start] 0 none s.chars

/-- The end of a match is the one found before, or lies behind characters that were read. -/
theorem search_eq_some (p : Program) : ∀ {rest : List Char} {before : Option Char}
    {pending : List Nat} {read n : Nat} {best : Option Nat},
    p.search before pending read best rest = some n →
      best = some n ∨ ∃ k, IsPrefixLength rest k ∧ n = read + k
  | [], before, pending, read, n, best, h => by
    rw [search] at h
    split at h
    · exact Or.inr ⟨0, .zero _, (Option.some.inj h).symm⟩
    · exact Or.inl h
  | c :: rest, before, pending, read, n, best, h => by
    rw [search] at h
    -- the best end so far is the old one or the present place
    have hbest : ∀ {k}, (if (p.front ⟨before, c :: rest⟩ pending).accepted then some read else best)
        = some k → best = some k ∨ ∃ j, IsPrefixLength (c :: rest) j ∧ k = read + j := by
      intro k hk
      split at hk
      · exact Or.inr ⟨0, .zero _, (Option.some.inj hk).symm⟩
      · exact Or.inl hk
    split at h
    · exact hbest h
    · rcases search_eq_some p h with hb | ⟨k, hk, rfl⟩
      · exact hbest hb
      · exact Or.inr ⟨c.utf8Size + k, hk.cons c, by omega⟩

theorem isPrefixLength_of_matchLength? {p : Program} {s : Slice} {n : Nat}
    (h : p.matchLength? s = some n) : IsPrefixLength s.chars n := by
  rcases search_eq_some p h with hn | ⟨k, hk, rfl⟩
  · simp at hn
  · rw [Nat.zero_add]; exact hk

end Program

end ShaderAssist

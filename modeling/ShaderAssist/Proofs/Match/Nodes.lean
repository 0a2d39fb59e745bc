import ShaderAssist.Match.Basic
import ShaderAssist.Proofs.Text.Passing
import Mathlib.Data.Nat.Basic
import Mathlib.Order.MinMax

/-!
# The nodes of a match

`Match.nodes` lists a match and everything below it, every node before those below it.

Two notions say how results lie in a document. `Match.PlacedAt d o r` is about one result `r` of an
attempt at the offset `o`: it starts at `o` unless it matched, only blanks and comments stand between
`o` and its start, and it ends at a boundary. `Match.Follow d o rs` is about results in a row, each of
them behind the one before it with nothing but blanks and comments in between.
-/

namespace ShaderAssist

/-! ### Nodes -/

mutual

/-- A match and the matches below it, in the order in which they are met. -/
def Match.nodes : Match → List Match
  | .node info children => .node info children :: nodesAll children

/-- Some matches and the matches below them. -/
def nodesAll : List Match → List Match
  | [] => []
  | m :: ms => m.nodes ++ nodesAll ms

end

theorem mem_nodesAll {r : Match} : ∀ {ms : List Match}, r ∈ nodesAll ms ↔ ∃ m ∈ ms, r ∈ m.nodes
  | [] => by simp [nodesAll]
  | m :: ms => by rw [nodesAll, List.mem_append, mem_nodesAll]; simp

namespace Match

variable {r : Match} {rs : List Match} {n o : Nat}

theorem nodes_eq (r : Match) : r.nodes = r :: nodesAll r.children := by
  cases r
  rw [nodes]
  rfl

theorem mem_nodes {r s : Match} : s ∈ r.nodes ↔ s = r ∨ ∃ c ∈ r.children, s ∈ c.nodes := by
  rw [nodes_eq, List.mem_cons, mem_nodesAll]

/-! ### The furthest end -/

theorem le_furthest : ∀ (rs : List Match) (n : Nat), n ≤ furthest n rs
  | [], _ => le_rfl
  | r :: rs, n => le_trans (le_max_left n r.stop) (le_furthest rs (max n r.stop))

theorem stop_le_furthest : ∀ {rs : List Match} {n : Nat}, r ∈ rs → r.stop ≤ furthest n rs
  | s :: rs, n, h => by
    rcases List.mem_cons.mp h with rfl | h
    · exact le_trans (le_max_right _ r.stop) (le_furthest rs _)
    · change r.stop ≤ furthest (max n s.stop) rs
      exact stop_le_furthest h

/-- The furthest end is one of the ends, or the least value that was asked for. -/
theorem furthest_eq : ∀ (rs : List Match) (n : Nat),
    furthest n rs = n ∨ ∃ r ∈ rs, furthest n rs = r.stop
  | [], n => Or.inl rfl
  | s :: rs, n => by
    rcases furthest_eq rs (max n s.stop) with h | ⟨r, hr, h⟩
    · rcases max_choice n s.stop with hm | hm
      · exact Or.inl (h.trans hm)
      · exact Or.inr ⟨s, List.mem_cons_self, h.trans hm⟩
    · exact Or.inr ⟨r, List.mem_cons_of_mem s hr, h⟩

/-! ### Ways to build a node -/

section Build
variable (id : ItemId) (item : Option ItemId) (kind : MatchKind) (origin : Origin) (name : String)
  (a b : Nat)

@[simp] theorem children_leaf : (leaf id kind a b).children = [] := rfl
@[simp] theorem kind_leaf : (leaf id kind a b).info.kind = kind := rfl
@[simp] theorem start_leaf : (leaf id kind a b).start = a := rfl
@[simp] theorem stop_leaf : (leaf id kind a b).stop = b := rfl

@[simp] theorem children_ofChildren : (ofChildren item kind o rs).children = rs := rfl
@[simp] theorem kind_ofChildren : (ofChildren item kind o rs).info.kind = kind := rfl

theorem start_ofChildren_of_ne (h : kind ≠ .matched) : (ofChildren item kind o rs).start = o := by
  cases kind with
  | matched => exact absurd rfl h
  | unmatched | unmatchedPattern | unmatchedText => rfl

@[simp] theorem start_ofChildren_matched :
    (ofChildren item .matched o (r :: rs)).start = r.start := rfl

theorem stop_ofChildren : (ofChildren item kind o rs).stop =
    furthest (ofChildren item kind o rs).start rs := rfl

@[simp] theorem children_withOrigin : (r.withOrigin origin).children = r.children := by cases r; rfl
@[simp] theorem kind_withOrigin : (r.withOrigin origin).info.kind = r.info.kind := by cases r; rfl
@[simp] theorem start_withOrigin : (r.withOrigin origin).start = r.start := by cases r; rfl
@[simp] theorem stop_withOrigin : (r.withOrigin origin).stop = r.stop := by cases r; rfl

@[simp] theorem children_withName : (r.withName name).children = r.children := by cases r; rfl
@[simp] theorem kind_withName : (r.withName name).info.kind = r.info.kind := by cases r; rfl
@[simp] theorem start_withName : (r.withName name).start = r.start := by cases r; rfl
@[simp] theorem stop_withName : (r.withName name).stop = r.stop := by cases r; rfl

@[simp] theorem children_withRange : (r.withRange a b).children = r.children := by cases r; rfl
@[simp] theorem kind_withRange : (r.withRange a b).info.kind = r.info.kind := by cases r; rfl
@[simp] theorem start_withRange : (r.withRange a b).start = a := by cases r; rfl
@[simp] theorem stop_withRange : (r.withRange a b).stop = b := by cases r; rfl

end Build

theorem isMatched_iff : r.isMatched ↔ r.info.kind = .matched := by
  unfold isMatched MatchInfo.isMatched
  exact beq_iff_eq

theorem isSkippedLine_of_isMatched (h : r.isMatched) : r.info.isSkippedLine = false := by
  rw [MatchInfo.isSkippedLine, isMatched_iff.mp h]
  rfl

@[simp] theorem isMatched_withOrigin (origin : Origin) :
    (r.withOrigin origin).isMatched = r.isMatched := by cases r; rfl

@[simp] theorem isMatched_withName (name : String) :
    (r.withName name).isMatched = r.isMatched := by cases r; rfl

@[simp] theorem isMatched_withRange (a b : Nat) :
    (r.withRange a b).isMatched = r.isMatched := by cases r; rfl

/-! ### Where results lie -/

/-- Where the result of an attempt at the offset `o` lies. -/
structure PlacedAt (d : Document) (o : Nat) (r : Match) : Prop where
  start_eq : ¬ r.isMatched → r.start = o
  passes : d.Passes o r.start
  le : r.start ≤ r.stop
  stop : d.IsBoundary r.stop

/-- Results in a row from the offset `o` on, with only blanks and comments before each of them. -/
def Follow (d : Document) : Nat → List Match → Prop
  | _, [] => True
  | o, r :: rs => d.Passes o r.start ∧ r.start ≤ r.stop ∧ d.IsBoundary r.stop ∧ Follow d r.stop rs

variable {d : Document}

theorem PlacedAt.offset_le (h : r.PlacedAt d o) : o ≤ r.stop :=
  le_trans h.passes.le h.le

theorem PlacedAt.follow (h : r.PlacedAt d o) (hrs : Follow d r.stop rs) : Follow d o (r :: rs) :=
  ⟨h.passes, h.le, h.stop, hrs⟩

/-- Results in a row are in a row from the start of the first one on. -/
theorem Follow.from_start (h : Follow d o (r :: rs)) : Follow d r.start (r :: rs) :=
  ⟨.refl h.1.isBoundary_right, h.2⟩

theorem Follow.of_passes {a b : Nat} (h : d.Passes a b) (hrs : Follow d b rs) : Follow d a rs := by
  cases rs with
  | nil => trivial
  | cons r rs => exact ⟨h.trans hrs.1, hrs.2⟩

theorem Follow.bounds : ∀ {rs : List Match} {o : Nat}, Follow d o rs →
    ∀ r ∈ rs, o ≤ r.start ∧ r.start ≤ r.stop ∧ d.IsBoundary r.stop
  | r :: rs, o, ⟨h1, h2, h3, h4⟩, s, hs => by
    rcases List.mem_cons.mp hs with rfl | hs
    · exact ⟨h1.le, h2, h3⟩
    · obtain ⟨h5, h6, h7⟩ := h4.bounds s hs
      exact ⟨le_trans (le_trans h1.le h2) h5, h6, h7⟩

/-- The furthest end of results with ends at boundaries is a boundary. -/
theorem isBoundary_furthest (ho : d.IsBoundary o) (h : ∀ r ∈ rs, d.IsBoundary r.stop) :
    d.IsBoundary (furthest o rs) := by
  rcases furthest_eq rs o with he | ⟨r, hr, he⟩
  · rw [he]; exact ho
  · rw [he]; exact h r hr

theorem PlacedAt.withOrigin (h : r.PlacedAt d o) (origin : Origin) :
    (r.withOrigin origin).PlacedAt d o := by
  cases r
  exact ⟨h.1, h.2, h.3, h.4⟩

theorem PlacedAt.withName (h : r.PlacedAt d o) (name : String) :
    (r.withName name).PlacedAt d o := by
  cases r
  exact ⟨h.1, h.2, h.3, h.4⟩

/-- A failed leaf lies at the offset where it was tried. -/
theorem placedAt_unmatched (id : ItemId) (ho : d.IsBoundary o) {b : Nat} (hb : d.IsBoundary b)
    (hle : o ≤ b) : (leaf id .unmatched o b).PlacedAt d o :=
  ⟨fun _ => rfl, .refl ho, hle, hb⟩

/-- A failed node lies at the offset where it was tried. -/
theorem placedAt_ofChildren_of_ne (item : Option ItemId) {kind : MatchKind} (hk : kind ≠ .matched)
    (ho : d.IsBoundary o) (h : ∀ r ∈ rs, d.IsBoundary r.stop) :
    (ofChildren item kind o rs).PlacedAt d o := by
  have hs : (ofChildren item kind o rs).start = o := start_ofChildren_of_ne item kind hk
  refine ⟨fun _ => hs, ?_, le_furthest rs _, ?_⟩
  · rw [hs]; exact .refl ho
  · rw [stop_ofChildren, hs]; exact isBoundary_furthest ho h

/-- A node over results in a row lies where they do. -/
theorem placedAt_ofChildren (item : Option ItemId) {kind : MatchKind}
    (hk : kind = .matched ∨ kind = .unmatched) (ho : d.IsBoundary o) (hne : rs ≠ [])
    (h : Follow d o rs) : (ofChildren item kind o rs).PlacedAt d o := by
  rcases hk with rfl | rfl
  · obtain ⟨r, rs, rfl⟩ := List.exists_cons_of_ne_nil hne
    refine ⟨fun hn => absurd rfl hn, h.1, le_furthest _ _, ?_⟩
    exact isBoundary_furthest h.1.isBoundary_right fun s hs => (h.bounds s hs).2.2
  · exact placedAt_ofChildren_of_ne item (by decide) ho fun s hs => (h.bounds s hs).2.2

end Match

end ShaderAssist

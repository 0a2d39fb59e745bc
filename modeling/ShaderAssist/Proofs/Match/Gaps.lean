import ShaderAssist.Proofs.Match.Geometry

/-!
# Gaps of match trees

What stands between the children of a node is blanks and whole comments, unless the children are attempts
at one place. The children of the root leave nothing else out of the whole text: what stands before the
first one and behind the last one is blanks and comments, too. So whatever is neither belongs to one of
the children of the root, be it only a line that nothing explains.
-/

namespace ShaderAssist

namespace MatchInfo

/-- The gaps that nodes in a row leave between two offsets. -/
def gaps (start stop : Nat) : List MatchInfo → List (Nat × Nat)
  | [] => [(start, stop)]
  | c :: cs => (start, c.start) :: gaps c.stop stop cs

/-- An offset between two offsets is inside one of the nodes or in one of the gaps. -/
theorem mem_or_mem_gaps {stop i : Nat} (hi : i < stop) : ∀ (cs : List MatchInfo) {start : Nat},
    start ≤ i → (∃ c ∈ cs, c.start ≤ i ∧ i < c.stop) ∨ ∃ gap ∈ gaps start stop cs, gap.1 ≤ i ∧ i < gap.2
  | [], start, hs => Or.inr ⟨(start, stop), List.mem_singleton_self _, hs, hi⟩
  | c :: cs, start, hs => by
    by_cases h1 : i < c.start
    · exact Or.inr ⟨_, List.mem_cons_self, hs, h1⟩
    by_cases h2 : i < c.stop
    · exact Or.inl ⟨c, List.mem_cons_self, Nat.le_of_not_lt h1, h2⟩
    rcases mem_or_mem_gaps hi cs (Nat.le_of_not_lt h2) with ⟨e, he, hin⟩ | ⟨gap, hgap, hin⟩
    · exact Or.inl ⟨e, List.mem_cons_of_mem c he, hin⟩
    · exact Or.inr ⟨gap, List.mem_cons_of_mem _ hgap, hin⟩

end MatchInfo

namespace Match

variable {d : Document} {r : Match} {rs : List Match} {a b stop : Nat}

/-- Some results leave nothing but blanks and comments between two offsets. -/
def Fill (d : Document) (start stop : Nat) (rs : List Match) : Prop :=
  ∀ gap ∈ MatchInfo.gaps start stop (rs.map info), d.Passes gap.1 gap.2

theorem fill_nil (h : d.Passes a stop) : Fill d a stop [] := by
  intro gap hgap
  rw [List.mem_singleton.mp hgap]
  exact h

theorem fill_cons (h : d.Passes a r.start) (hrs : Fill d r.stop stop rs) :
    Fill d a stop (r :: rs) := by
  intro gap hgap
  rcases List.mem_cons.mp hgap with rfl | hgap
  · exact h
  · exact hrs gap hgap

/-- Blanks and comments before results that leave nothing else out. -/
theorem Fill.of_passes (h : d.Passes a b) (hrs : Fill d b stop rs) : Fill d a stop rs := by
  cases rs with
  | nil => exact fill_nil (h.trans (hrs _ (List.mem_singleton_self _)))
  | cons r rs =>
    refine fill_cons (h.trans (hrs _ List.mem_cons_self)) fun gap hgap => ?_
    exact hrs gap (List.mem_cons_of_mem _ hgap)

end Match

namespace Matcher

variable {m : Matcher} {attempt : Attempt}

/-- **The content of a document leaves nothing out** but blanks and comments. -/
theorem LinesRun.fill (ha : m.Sound attempt) {body : List ItemId} {o : Nat} {rs : List Match}
    {b : Bool} (h : LinesRun m attempt body o rs b) (ho : m.document.IsBoundary o) :
    Match.Fill m.document o m.document.size rs := by
  induction h with
  | @last o rs hl =>
    obtain ⟨hend, rfl⟩ := hl
    have hc := passes_skip ho true
    have hsize : m.skip o true = m.document.size := le_antisymm hc.isBoundary_right.le_size hend
    rw [hsize] at hc
    exact Match.fill_nil hc
  | item hr _ ih =>
    have hc := passes_skip ho true
    obtain ⟨-, -, hp⟩ := hr.advances ha hc
    exact Match.fill_cons (hc.trans hp.passes) (ih hp.stop)
  | line _ _ hs _ ih =>
    have hc := passes_skip ho true
    have hk := ha.skippedLine hc.isBoundary_right hs
    obtain ⟨-, hn⟩ := hk.leads _ rfl
    refine Match.fill_cons ?_ (.of_passes hn (ih hn.isBoundary_right))
    rw [hk.start_eq]
    exact hc
  | lastLine _ _ hs =>
    have hc := passes_skip ho true
    have hk := ha.skippedLine hc.isBoundary_right hs
    refine Match.fill_cons ?_ (Match.fill_nil (hk.ends rfl))
    rw [hk.start_eq]
    exact hc

end Matcher

/-- **No text is lost.** Only blanks and comments stand between the children of a node, and what the
children of the root leave of the whole text is blanks and comments, too. -/
theorem isTrivia_gaps_tree {E : Engine} {g : Grammar} {c : CompiledGrammar} (hg : g.compile E = .ok c)
    (d : Document) (limit : Nat) (hlimit : 1 ≤ limit) :
    (Matcher.tree ⟨c, d, limit⟩).Obeys (fun info below =>
      ¬ info.holdsAttempts → below.IsChain fun a b => d.IsTrivia a.stop b.start) ∧
    ∃ root below, (Matcher.tree ⟨c, d, limit⟩).node? MatchTree.root = some root ∧
      root.children.map (Matcher.tree ⟨c, d, limit⟩).info? = below.map some ∧
      (∀ gap ∈ MatchInfo.gaps 0 d.size below, d.IsTrivia gap.1 gap.2) ∧
      ∀ i < d.size, (∃ c ∈ below, c.start ≤ i ∧ i < c.stop) ∨
        ∃ gap ∈ MatchInfo.gaps 0 d.size below, gap.1 ≤ i ∧ i < gap.2 := by
  constructor
  · refine Matcher.obeys_tree fun r hr ha => ?_
    rw [List.isChain_map]
    exact (hr.follow ha).isChain.imp fun a b hab => hab.isTrivia
  · obtain ⟨body, rs, b, hrun, hrs, -, -⟩ :=
      Matcher.exists_linesRun_matchDocument (m := ⟨c, d, limit⟩) hg hlimit
    obtain ⟨n, hn, -, hbelow⟩ := MatchTree.exists_root (Matcher.matchDocument ⟨c, d, limit⟩).value
    rw [hrs] at hbelow
    have hfill := Matcher.LinesRun.fill (Matcher.sound_matchAt _ _) hrun d.restAt_zero.isBoundary
    refine ⟨n, _, hn, hbelow, fun gap hgap => (hfill gap hgap).isTrivia, fun i hi => ?_⟩
    exact MatchInfo.mem_or_mem_gaps hi _ (Nat.zero_le i)

theorem isTrivia_gaps_tree_lines : ∃ c, blockGrammar.compile .standard = .ok c ∧
    ∃ root below, (Matcher.tree ⟨c, .ofString "? /* a\n */ \x7b\r\n value\r", 3⟩).node?
        MatchTree.root = some root ∧
      root.children.map (Matcher.tree ⟨c, .ofString "? /* a\n */ \x7b\r\n value\r", 3⟩).info? =
        below.map some ∧
      ∀ gap ∈ MatchInfo.gaps 0 21 below,
        (Document.ofString "? /* a\n */ \x7b\r\n value\r").IsTrivia gap.1 gap.2 := by
  obtain ⟨c, hc⟩ := exists_compile_blockGrammar
  have hsize : (Document.ofString "? /* a\n */ \x7b\r\n value\r").size = 21 := by decide
  obtain ⟨-, root, below, hroot, hbelow, hgaps, -⟩ :=
    isTrivia_gaps_tree hc (.ofString "? /* a\n */ \x7b\r\n value\r") 3 (by decide)
  rw [hsize] at hgaps
  exact ⟨c, hc, root, below, hroot, hbelow, hgaps⟩

end ShaderAssist

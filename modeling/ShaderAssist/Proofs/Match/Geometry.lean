import Mathlib.Data.List.Chain
import Mathlib.Data.List.Pairwise
import ShaderAssist.Proofs.Grammar.Growth
import ShaderAssist.Proofs.Match.Layout

/-!
# Geometry of match trees

In the tree of a document every node lies inside the text, every child inside its parent, and the
children of a node stand in the order of their starts. Unless they are attempts at one place, no child
reaches into the next one. The root covers the whole text.
-/

namespace ShaderAssist

namespace MatchInfo

/-- How a node and the children below it lie in a text of `size` bytes. -/
structure Nested (size : Nat) (info : MatchInfo) (below : List MatchInfo) : Prop where
  le : info.start ≤ info.stop
  stop_le : info.stop ≤ size
  inside : ∀ c ∈ below, info.start ≤ c.start ∧ c.stop ≤ info.stop
  sorted : below.Pairwise fun a b => a.start ≤ b.start
  apart : ¬ info.holdsAttempts → below.IsChain fun a b => a.stop ≤ b.start

end MatchInfo

namespace MatchTree

/-- Offset at which a node starts. -/
def start (t : MatchTree) (id : NodeId) : Nat :=
  ((t.node? id).map fun n => n.start).getD 0

theorem start_of_node? {t : MatchTree} {id : NodeId} {n : MatchNode} (h : t.node? id = some n) :
    t.start id = n.start := by
  rw [start, h]
  rfl

theorem stop_of_node? {t : MatchTree} {id : NodeId} {n : MatchNode} (h : t.node? id = some n) :
    t.stop id = n.stop := by
  rw [stop, h]
  rfl

/-- Every node of a tree has the children it refers to, and `Law` relates what they say. -/
def Obeys (t : MatchTree) (Law : MatchInfo → List MatchInfo → Prop) : Prop :=
  ∀ id n, t.node? id = some n →
    ∃ below, n.children.map t.info? = below.map some ∧ Law n.toMatchInfo below

/-- A law of all nodes of a match is a law of its tree. -/
theorem obeys_ofMatch {Law : MatchInfo → List MatchInfo → Prop} {m : Match}
    (h : ∀ r ∈ m.nodes, Law r.info (r.children.map Match.info)) : (ofMatch m).Obeys Law := by
  intro id n hn
  obtain ⟨r, hr, hinfo, hchildren⟩ := exists_of_node? hn
  refine ⟨r.children.map Match.info, hchildren, ?_⟩
  rw [hinfo]
  exact h r (List.mem_of_getElem? hr)

end MatchTree

namespace Match

variable {d : Document} {r : Match} {rs : List Match} {o : Nat}

theorem Follow.isChain : ∀ {rs : List Match} {o : Nat}, Follow d o rs →
    rs.IsChain fun a b => d.Passes a.stop b.start
  | [], _, _ => .nil
  | [_], _, _ => .singleton _
  | _ :: _ :: _, _, ⟨_, _, _, h⟩ => .cons_cons h.1 h.isChain

theorem Follow.pairwise : ∀ {rs : List Match} {o : Nat}, Follow d o rs →
    rs.Pairwise fun a b => a.start ≤ b.start
  | [], _, _ => .nil
  | _ :: _, _, ⟨_, h2, _, h4⟩ =>
    .cons (fun s hs => le_trans h2 (h4.bounds s hs).1) h4.pairwise

/-- Nodes in a row do not reach into each other. -/
theorem Follow.apart : ∀ {rs : List Match} {o : Nat}, Follow d o rs →
    rs.Pairwise fun a b => a.stop ≤ b.start
  | [], _, _ => .nil
  | _ :: _, _, ⟨_, _, _, h⟩ => .cons (fun s hs => (h.bounds s hs).1) h.apart

/-- Nodes that are laid as they should be are nested. -/
theorem Laid.nested (h : r.Laid d) :
    MatchInfo.Nested d.size r.info (r.children.map Match.info) := by
  by_cases ha : r.info.holdsAttempts
  · have hc := h.attempts ha
    refine ⟨h.le, h.stop.le_size, ?_, ?_, fun hn => absurd ha hn⟩
    · intro c hmem
      obtain ⟨s, hs, rfl⟩ := List.mem_map.mp hmem
      exact ⟨(hc s hs).1.ge, h.inside s hs⟩
    · rw [List.pairwise_map]
      refine List.pairwise_of_forall_mem_list fun a ha b hb => ?_
      exact le_of_eq ((hc a ha).1.trans (hc b hb).1.symm)
  · have hf := h.follow ha
    refine ⟨h.le, h.stop.le_size, ?_, ?_, fun _ => ?_⟩
    · intro c hmem
      obtain ⟨s, hs, rfl⟩ := List.mem_map.mp hmem
      exact ⟨(hf.bounds s hs).1, h.inside s hs⟩
    · rw [List.pairwise_map]
      exact hf.pairwise
    · rw [List.isChain_map]
      exact hf.isChain.imp fun a b hab => hab.le

end Match

namespace Matcher

variable {m : Matcher}

/-- The tree of the whole document. -/
def tree (m : Matcher) : MatchTree :=
  .ofMatch m.matchDocument.value

theorem obeys_tree {Law : MatchInfo → List MatchInfo → Prop}
    (h : ∀ r : Match, r.Laid m.document → Law r.info (r.children.map Match.info)) :
    m.tree.Obeys Law :=
  MatchTree.obeys_ofMatch fun r hr => h r (laid_nodes _ _ m.document.restAt_zero.isBoundary r hr)

/-- **The root of the tree** is the content of all lines, unless the depth is limited to nothing. -/
theorem exists_linesRun_matchDocument {E : Engine} {g : Grammar} (hg : g.compile E = .ok m.grammar)
    (hlimit : 1 ≤ m.depthLimit) :
    ∃ body rs b, LinesRun m (m.matchAt (m.depthLimit - 1)) body 0 rs b ∧
      m.matchDocument.value.children = rs ∧ m.matchDocument.value.start = 0 ∧
        m.matchDocument.value.stop = m.document.size := by
  obtain ⟨body, hroot⟩ := item?_root_of_compile hg
  have ho := m.document.restAt_zero.isBoundary
  have hstep : m.matchDocument.value =
      (m.matchStep (m.matchAt (m.depthLimit - 1)) CompiledGrammar.root (.grammar body) 0).value := by
    obtain ⟨n, hn⟩ := Nat.exists_eq_add_of_le' hlimit
    rw [matchDocument, matchItem, hn, matchAt_succ ho, hroot, Nat.add_sub_cancel]
  have hout := outcome_matchStep (sound_matchAt m (m.depthLimit - 1)) ho CompiledGrammar.root
    (.grammar body)
  rw [← hstep] at hout
  obtain ⟨rs, b, hrun, hr⟩ := hout.exists_linesRun
  rw [hr]
  exact ⟨body, rs, b, hrun, rfl, rfl, rfl⟩

end Matcher

/-- **Geometry.** All nodes of the tree of a document are nested, and the root covers the text. -/
theorem nested_tree {E : Engine} {g : Grammar} {c : CompiledGrammar} (hg : g.compile E = .ok c)
    (d : Document) (limit : Nat) :
    (Matcher.tree ⟨c, d, limit⟩).Obeys (MatchInfo.Nested d.size) ∧
      (1 ≤ limit → ∃ root, (Matcher.tree ⟨c, d, limit⟩).info? MatchTree.root = some root ∧
        root.start = 0 ∧ root.stop = d.size) := by
  refine ⟨Matcher.obeys_tree fun r hr => hr.nested, fun hlimit => ?_⟩
  obtain ⟨-, -, -, -, -, hstart, hstop⟩ :=
    Matcher.exists_linesRun_matchDocument (m := ⟨c, d, limit⟩) hg hlimit
  exact ⟨_, MatchTree.info?_root _, hstart, hstop⟩

theorem nested_tree_open_block : ∃ c, blockGrammar.compile .standard = .ok c ∧
    (Matcher.tree ⟨c, .ofString "\x7b // open\r\n value on; ?\r\n", 3⟩).Obeys
      (MatchInfo.Nested 25) ∧
    ∃ root, (Matcher.tree ⟨c, .ofString "\x7b // open\r\n value on; ?\r\n", 3⟩).info?
      MatchTree.root = some root ∧ root.start = 0 ∧ root.stop = 25 := by
  obtain ⟨c, hc⟩ := exists_compile_blockGrammar
  have hsize : (Document.ofString "\x7b // open\r\n value on; ?\r\n").size = 25 := by decide
  obtain ⟨h1, h2⟩ := nested_tree hc (.ofString "\x7b // open\r\n value on; ?\r\n") 3
  rw [hsize] at h1 h2
  exact ⟨c, hc, h1, h2 (by decide)⟩

end ShaderAssist

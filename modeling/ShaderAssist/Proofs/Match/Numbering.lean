import ShaderAssist.Match.Tree
import ShaderAssist.Proofs.Match.Nodes
import Mathlib.Data.List.Forall2

/-!
# Numbered nodes

The tree of a match has one node for every node of the match, in the same order, and a node of the tree
refers to its children by their places in that order (`numbered_ofMatch`). So what is known about every
node of a match and its children is known about the tree (`exists_of_node?`).
-/

namespace ShaderAssist

/-- The numbers refer to the given matches among all of them. -/
def Refers (all : List Match) (ids : List NodeId) (ms : List Match) : Prop :=
  List.Forall₂ (fun id m => all[id.index]? = some m) ids ms

/-- A numbered node says what the match says, and refers to its children. -/
def Numbered (all : List Match) (n : MatchNode) (m : Match) : Prop :=
  n.toMatchInfo = m.info ∧ Refers all n.children m.children

mutual

theorem numbered_number (all front back : List Match) : ∀ (m : Match) (k : NodeContext),
    all = front ++ m.nodes ++ back →
      List.Forall₂ (Numbered all) (m.number k front.length).1 m.nodes ∧
        (m.number k front.length).2 = front.length + m.nodes.length
  | .node info children, k, hall => by
    have hnodes : (Match.node info children).nodes = .node info children :: nodesAll children := by
      rw [Match.nodes]
    obtain ⟨h1, h2, h3⟩ := numbered_numberAll all (front ++ [.node info children]) back children
      (k.below ⟨front.length⟩ info) (by rw [hall, hnodes]; simp)
    rw [List.length_append, List.length_singleton] at h1 h2 h3
    rw [hnodes, Match.number]
    refine ⟨.cons ⟨rfl, h2⟩ h1, ?_⟩
    dsimp only
    rw [h3, List.length_cons]
    omega

theorem numbered_numberAll (all front back : List Match) : ∀ (ms : List Match) (k : NodeContext),
    all = front ++ nodesAll ms ++ back →
      List.Forall₂ (Numbered all) (numberAll k front.length ms).1 (nodesAll ms) ∧
        Refers all (numberAll k front.length ms).2.1 ms ∧
          (numberAll k front.length ms).2.2 = front.length + (nodesAll ms).length
  | [], k, _ => by
    rw [numberAll, nodesAll]
    exact ⟨.nil, .nil, rfl⟩
  | m :: ms, k, hall => by
    rw [nodesAll] at hall
    obtain ⟨h1, h2⟩ := numbered_number all front (nodesAll ms ++ back) m k (by rw [hall]; simp)
    obtain ⟨h3, h4, h5⟩ := numbered_numberAll all (front ++ m.nodes) back ms k (by rw [hall]; simp)
    rw [List.length_append, ← h2] at h3 h4 h5
    have hm : all[front.length]? = some m := by
      rw [hall, Match.nodes_eq, List.append_assoc, List.getElem?_append_right le_rfl, Nat.sub_self]
      rfl
    rw [numberAll, nodesAll]
    refine ⟨List.rel_append h1 h3, .cons hm h4, ?_⟩
    dsimp only
    rw [h5, h2, List.length_append]
    omega

end

namespace MatchTree

/-- **The nodes of a tree** are those of the match in order. -/
theorem numbered_ofMatch (m : Match) :
    List.Forall₂ (Numbered m.nodes) (ofMatch m).nodes.toList m.nodes := by
  unfold ofMatch
  rw [List.toList_toArray]
  exact (numbered_number m.nodes [] [] m {} (by simp)).1

/-- What a node of a tree says. -/
def info? (t : MatchTree) (id : NodeId) : Option MatchInfo :=
  (t.node? id).map MatchNode.toMatchInfo

theorem info?_ofMatch (m : Match) (id : NodeId) :
    (ofMatch m).info? id = (m.nodes[id.index]?).map Match.info := by
  have h := numbered_ofMatch m
  unfold info? node?
  rw [← Array.getElem?_toList]
  rcases hn : (ofMatch m).nodes.toList[id.index]? with _ | n
  · rw [List.getElem?_eq_none_iff, h.length_eq, ← List.getElem?_eq_none_iff] at hn
    rw [hn]
    rfl
  · obtain ⟨hlt, rfl⟩ := List.getElem?_eq_some_iff.mp hn
    have hlt' : id.index < m.nodes.length := by rw [← h.length_eq]; exact hlt
    rw [List.getElem?_eq_getElem hlt']
    exact congrArg some (h.get hlt hlt').1

/-- **A node of a tree** stands for a node of the match: it says the same, and so do its children. -/
theorem exists_of_node? {m : Match} {id : NodeId} {n : MatchNode}
    (h : (ofMatch m).node? id = some n) :
    ∃ r, m.nodes[id.index]? = some r ∧ n.toMatchInfo = r.info ∧
      n.children.map (ofMatch m).info? = (r.children.map Match.info).map some := by
  have hnum := numbered_ofMatch m
  unfold node? at h
  rw [← Array.getElem?_toList] at h
  obtain ⟨hlt, rfl⟩ := List.getElem?_eq_some_iff.mp h
  have hlt' : id.index < m.nodes.length := by rw [← hnum.length_eq]; exact hlt
  obtain ⟨hinfo, href⟩ := hnum.get hlt hlt'
  refine ⟨_, List.getElem?_eq_getElem hlt', hinfo, ?_⟩
  rw [List.map_map]
  refine List.forall₂_eq_eq_eq ▸ ?_
  rw [List.forall₂_map_left_iff, List.forall₂_map_right_iff]
  refine href.imp fun c r hr => ?_
  rw [info?_ofMatch, hr]
  rfl

theorem info?_root (m : Match) : (ofMatch m).info? root = some m.info := by
  rw [info?_ofMatch, Match.nodes_eq]
  rfl

theorem exists_root (m : Match) : ∃ n, (ofMatch m).node? root = some n ∧ n.toMatchInfo = m.info ∧
    n.children.map (ofMatch m).info? = (m.children.map Match.info).map some := by
  obtain ⟨n, hn, -⟩ := Option.map_eq_some_iff.mp (info?_root m)
  obtain ⟨r, hr, hinfo, hchildren⟩ := exists_of_node? hn
  rw [Match.nodes_eq] at hr
  obtain rfl : m = r := Option.some.inj hr
  exact ⟨n, hn, hinfo, hchildren⟩

end MatchTree

end ShaderAssist

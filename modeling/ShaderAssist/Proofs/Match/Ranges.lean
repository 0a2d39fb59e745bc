import ShaderAssist.Proofs.Match.Geometry
import ShaderAssist.Proofs.Text.Positions

/-!
# Ranges of nodes

The text of a node is what stands between two offsets; its range gives the two places in lines and columns.
The two ways lead to the same text (`textOfRange_range`), with one exception. A comment, and a regular
expression for the rest of a line, can reach over the carriage return before a line feed, and the root ends
where the text does. The position after such a return is outside its line, so a range that starts or ends
there denotes no text at all.
-/

namespace ShaderAssist

namespace Document

variable {d : Document} {a b : Nat}

theorem offsetAt_positionAt (ha : d.IsBoundary a) (h : ¬ d.AfterReturn a) :
    d.offsetAt (d.positionAt a) = .ok a := by
  obtain ⟨rest, front, ht, rfl⟩ := ha
  rw [afterReturn_byteLength_iff ht] at h
  rw [positionAt_byteLength ht]
  exact (offsetAt_endOf ht).1 h

theorem offsetAt_positionAt_of_afterReturn (ha : d.IsBoundary a) (h : d.AfterReturn a) :
    d.offsetAt (d.positionAt a) = .error (.outsideLine (d.positionAt a)) := by
  obtain ⟨rest, front, ht, rfl⟩ := ha
  rw [afterReturn_byteLength_iff ht] at h
  rw [positionAt_byteLength ht]
  exact (offsetAt_endOf ht).2 h

/-- The range from one boundary to another one denotes the text between them. -/
theorem textOfRange_positionAt (ha : d.IsBoundary a) (hb : d.IsBoundary b) (hle : a ≤ b)
    (hra : ¬ d.AfterReturn a) (hrb : ¬ d.AfterReturn b) :
    d.textOfRange ⟨d.positionAt a, d.positionAt b⟩ = .ok ((d.textBetween a b).getD []) := by
  obtain ⟨t, rest, hrest, rfl⟩ := exists_restAt_append ha hb hle
  rw [hrest.textBetween, textOfRange_eq_ok_iff]
  exact ⟨a, rest, offsetAt_positionAt ha hra, offsetAt_positionAt hb hrb, hrest⟩

/-- A range that starts after the carriage return of a line denotes no text, -/
theorem textOfRange_of_afterReturn_start (ha : d.IsBoundary a) (hra : d.AfterReturn a) (stop : Position) :
    d.textOfRange ⟨d.positionAt a, stop⟩ = .error (.outsideLine (d.positionAt a)) := by
  unfold textOfRange
  dsimp only
  rw [offsetAt_positionAt_of_afterReturn ha hra]
  rfl

/-- and neither does one that only ends there. -/
theorem textOfRange_of_afterReturn_stop (ha : d.IsBoundary a) (hra : ¬ d.AfterReturn a) (hb : d.IsBoundary b)
    (hrb : d.AfterReturn b) :
    d.textOfRange ⟨d.positionAt a, d.positionAt b⟩ = .error (.outsideLine (d.positionAt b)) := by
  unfold textOfRange
  dsimp only
  rw [offsetAt_positionAt ha hra, offsetAt_positionAt_of_afterReturn hb hrb]
  rfl

end Document

namespace Matcher

variable {m : Matcher} {id : NodeId} {n : MatchNode}

/-- The ends of a node are boundaries in ascending order. -/
theorem isBoundary_of_node? (hn : m.tree.node? id = some n) :
    m.document.IsBoundary n.start ∧ m.document.IsBoundary n.stop ∧ n.start ≤ n.stop := by
  have hobeys : m.tree.Obeys fun info _ => m.document.IsBoundary info.start ∧
      m.document.IsBoundary info.stop ∧ info.start ≤ info.stop :=
    obeys_tree fun r hr => ⟨hr.start, hr.stop, hr.le⟩
  obtain ⟨below, -, hlaw⟩ := hobeys id n hn
  exact hlaw

/-- **The range of a node denotes its text**, unless the node starts or ends after the carriage return at the
end of a line; then it denotes no text, and the error is about the start if it is such a place, and else about
the stop. -/
theorem textOfRange_range (m : Matcher) (id : NodeId) (n : MatchNode) (hn : m.tree.node? id = some n) :
    (¬ m.document.AfterReturn n.start → ¬ m.document.AfterReturn n.stop →
      (m.document.textOfRange (m.tree.range m.document id)).map String.ofList =
        .ok (m.tree.text m.document id)) ∧
    (m.document.AfterReturn n.start → m.document.textOfRange (m.tree.range m.document id) =
      .error (.outsideLine (m.document.positionAt n.start))) ∧
    (¬ m.document.AfterReturn n.start → m.document.AfterReturn n.stop →
      m.document.textOfRange (m.tree.range m.document id) =
        .error (.outsideLine (m.document.positionAt n.stop))) := by
  obtain ⟨hstart, hstop, hle⟩ := isBoundary_of_node? hn
  unfold MatchTree.range MatchTree.text
  rw [hn]
  refine ⟨fun hrs hre => ?_, fun hrs => Document.textOfRange_of_afterReturn_start hstart hrs _,
    fun hrs hre => Document.textOfRange_of_afterReturn_stop hstart hrs hstop hre⟩
  dsimp only
  rw [Document.textOfRange_positionAt hstart hstop hle hrs hre]
  rfl

end Matcher

/-- A value without an end, with a comment behind it that reaches over the carriage return. -/
def openValue : Document :=
  .ofString "\x7b value // c\r\n"

theorem not_afterReturn_openValue : ¬ openValue.AfterReturn 2 ∧ ¬ openValue.AfterReturn 7 := by
  have hword : openValue.text = openValue.text.take 2 ++ openValue.text.drop 2 := by decide
  have hblank : openValue.text = openValue.text.take 7 ++ openValue.text.drop 7 := by decide
  have hword := Document.afterReturn_byteLength_iff hword
  have hblank := Document.afterReturn_byteLength_iff hblank
  constructor
  · exact fun h => absurd (hword.mp h).1 (by decide)
  · exact fun h => absurd (hblank.mp h).1 (by decide)

theorem textOfRange_range_value : ∃ c n, blockGrammar.compile .standard = .ok c ∧
    (Matcher.tree ⟨c, openValue, 512⟩).node? ⟨8⟩ = some n ∧
    (openValue.textOfRange ((Matcher.tree ⟨c, openValue, 512⟩).range openValue ⟨8⟩)).map String.ofList =
      .ok "value" := by
  obtain ⟨c, hc⟩ := exists_compile_blockGrammar
  have heval : ((blockGrammar.compile .standard).toOption.map fun c =>
      (((Matcher.tree ⟨c, openValue, 512⟩).node? ⟨8⟩).map fun n => (n.start, n.stop),
        (Matcher.tree ⟨c, openValue, 512⟩).text openValue ⟨8⟩)) = some (some (2, 7), "value") := by
    decide +kernel
  rw [hc] at heval
  obtain ⟨hnode, htext⟩ := Prod.mk.inj (Option.some.inj heval)
  obtain ⟨n, hn, hends⟩ := Option.map_eq_some_iff.mp hnode
  obtain ⟨hstart, hstop⟩ := Prod.mk.inj hends
  refine ⟨c, n, hc, hn, ?_⟩
  rw [← htext]
  refine (Matcher.textOfRange_range ⟨c, openValue, 512⟩ ⟨8⟩ n hn).1 ?_ ?_
  · rw [hstart]
    exact not_afterReturn_openValue.1
  · rw [hstop]
    exact not_afterReturn_openValue.2

/-- **A range that denotes no text**: the value is still open at the end of its line, so the node for it ends
with the comment, between the carriage return and the line feed. -/
theorem textOfRange_range_openValue : ∃ c, blockGrammar.compile .standard = .ok c ∧
    (Matcher.tree ⟨c, openValue, 512⟩).text openValue ⟨7⟩ = "value // c\r" ∧
    (Matcher.tree ⟨c, openValue, 512⟩).range openValue ⟨7⟩ = ⟨⟨0, 2⟩, ⟨0, 13⟩⟩ ∧
    openValue.textOfRange ⟨⟨0, 2⟩, ⟨0, 13⟩⟩ = .error (.outsideLine ⟨0, 13⟩) := by
  obtain ⟨c, hc⟩ := exists_compile_blockGrammar
  have heval : ((blockGrammar.compile .standard).toOption.map fun c =>
      ((Matcher.tree ⟨c, openValue, 512⟩).text openValue ⟨7⟩,
        (Matcher.tree ⟨c, openValue, 512⟩).range openValue ⟨7⟩)) =
      some ("value // c\r", ⟨⟨0, 2⟩, ⟨0, 13⟩⟩) := by
    decide +kernel
  rw [hc] at heval
  obtain ⟨htext, hrange⟩ := Prod.mk.inj (Option.some.inj heval)
  exact ⟨c, hc, htext, hrange, by decide +kernel⟩

end ShaderAssist

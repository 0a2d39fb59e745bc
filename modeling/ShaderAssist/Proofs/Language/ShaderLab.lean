import ShaderAssist.Language.ShaderLab
import ShaderAssist.Proofs.Grammar.Descending

/-!
# The language of shader documents

The grammar of the language is descending, and so is the table of items that it compiles to. So the matcher
never tries an item where the item is under way already, whatever the text, and the depth it needs is bounded
by the size of the text.
-/

namespace ShaderAssist

namespace ShaderLab

-- The check reads all sources and regular expressions of the grammar: this is the only place where it runs.
theorem isDescending_grammar : grammar.isDescending := by
  decide +kernel

/-- **The grammar has no left recursion.** While a document is matched, no item is tried at an offset where
it is under way, so at most as many calls are under way as there are pairs of an item and an offset. A
limit that allows so many is never met, and all these limits give the same match. -/
theorem no_left_recursion : ∃ c, grammar.compile .standard = .ok c ∧ ∀ d : Document,
    (∀ limit stack, Matcher.CallStack ⟨c, d, limit⟩ stack →
      stack.Nodup ∧ stack.length ≤ c.items.size * (d.size + 1)) ∧
    ∀ limit, c.items.size * (d.size + 1) ≤ limit →
      (Matcher.matchDocument ⟨c, d, limit⟩).Uncut ∧
      ∀ limit', c.items.size * (d.size + 1) ≤ limit' →
        Matcher.matchDocument ⟨c, d, limit'⟩ = Matcher.matchDocument ⟨c, d, limit⟩ := by
  obtain ⟨c, hc, hdesc⟩ := (Grammar.isDescending_of_check isDescending_grammar).exists_compile
  have hroot : ∃ item, c.item? CompiledGrammar.root = some item := by
    obtain ⟨body, hbody⟩ := item?_root_of_compile hc
    exact ⟨_, hbody⟩
  have huncut : ∀ (d : Document) limit, c.items.size * (d.size + 1) ≤ limit →
      (Matcher.matchDocument ⟨c, d, limit⟩).Uncut :=
    fun d limit h => Matcher.uncut_matchDocument (m := ⟨c, d, limit⟩) hdesc hroot h
  refine ⟨c, hc, fun d => ⟨fun limit stack hstack => ?_, fun limit h => ⟨huncut d limit h, ?_⟩⟩⟩
  · exact ⟨Matcher.nodup_callStack (m := ⟨c, d, limit⟩) hdesc hroot hstack,
      Matcher.length_callStack_le (m := ⟨c, d, limit⟩) hdesc hroot hstack⟩
  · intro limit' h'
    exact Matcher.matchItem_withLimit (m := ⟨c, d, limit⟩) (huncut d limit h) (huncut d limit' h')

end ShaderLab

end ShaderAssist

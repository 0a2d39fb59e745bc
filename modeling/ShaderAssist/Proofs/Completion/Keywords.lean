import ShaderAssist.Assistant
import ShaderAssist.Proofs.Completion.Arranging

/-!
# Completion with and without keywords

Whether keywords are offered is a setting that only a few providers look at, and each of them then puts keywords and
snippets among what it offers anyway (`interspersed_offer`). All other items are offered in both cases, so an item
that is no keyword is shown with keywords only if it is shown without them (`complete_withKeywords`).
-/

namespace ShaderAssist

/-- An item that depends on the setting: a keyword or a snippet. -/
def CompletionItem.IsKeyword (i : CompletionItem) : Prop :=
  i.kind = .keyword ∨ i.kind = .snippet

/-- The caret with keywords turned on or off. -/
def Caret.withKeywords (c : Caret) (enabled : Bool) : Caret :=
  { c with settings := { c.settings with keywordCompletion := enabled } }

/-- The assistant with keywords turned on or off. -/
def Assistant.withKeywords (a : Assistant) (enabled : Bool) : Assistant :=
  { a with settings := { a.settings with keywordCompletion := enabled } }

namespace Completion

variable (c : Caret) (node : NodeId)

/-! ### Providers -/

theorem isKeyword_keyword (label : String) : (keyword label).IsKeyword :=
  Or.inl rfl

theorem isKeyword_snippet (label insertText : String) : (snippet label insertText).IsKeyword :=
  Or.inr rfl

theorem isKeyword_of_mem_map {labels : List String} {i : CompletionItem} (h : i ∈ labels.map keyword) :
    i.IsKeyword := by
  obtain ⟨label, -, rfl⟩ := List.mem_map.mp h
  exact isKeyword_keyword label

/-- A provider that offers something at blank places only. -/
theorem interspersed_ite {blank : Bool} {items items' : List CompletionItem}
    (h : Interspersed CompletionItem.IsKeyword items items') :
    Interspersed CompletionItem.IsKeyword (if blank then items else []) (if blank then items' else []) := by
  split_ifs
  · exact h
  · exact .nil

theorem interspersed_shaderScopeItems : Interspersed CompletionItem.IsKeyword
    (shaderScopeItems (c.withKeywords false) node) (shaderScopeItems (c.withKeywords true) node) := by
  have hoff : shaderScopeItems (c.withKeywords false) node = [] := if_neg (by simp [Caret.withKeywords])
  rw [hoff]
  refine .of_forall fun i hi => ?_
  unfold shaderScopeItems at hi
  split_ifs at hi
  · simp only [List.mem_cons, List.not_mem_nil, or_false] at hi
    rcases hi with rfl | rfl | rfl | rfl | rfl <;> exact isKeyword_snippet _ _
  · cases hi

theorem isKeyword_of_mem_passKeywords {i : CompletionItem} (h : i ∈ passKeywords) : i.IsKeyword := by
  rcases List.mem_append.mp h with h | h
  · exact isKeyword_of_mem_map h
  · simp only [List.mem_cons, List.not_mem_nil, or_false] at h
    rcases h with rfl | rfl <;> exact isKeyword_snippet _ _

theorem isKeyword_of_mem_subShaderKeywords {i : CompletionItem} (h : i ∈ subShaderKeywords) : i.IsKeyword := by
  rcases List.mem_append.mp h with h | h
  · exact isKeyword_of_mem_map h
  · simp only [List.mem_cons, List.not_mem_nil, or_false] at h
    rcases h with rfl | rfl | rfl | rfl <;> exact isKeyword_snippet _ _

theorem interspersed_renderBlockItems : Interspersed CompletionItem.IsKeyword
    (renderBlockItems (c.withKeywords false) node) (renderBlockItems (c.withKeywords true) node) := by
  refine interspersed_ite ((Interspersed.refl _ (renderStateNames c)).append (.of_forall fun i hi => ?_))
  rw [if_neg (by simp [Caret.withKeywords])] at hi
  split_ifs at hi
  · exact isKeyword_of_mem_passKeywords hi
  · exact isKeyword_of_mem_subShaderKeywords hi

theorem interspersed_blockItems : Interspersed CompletionItem.IsKeyword
    (blockItems (c.withKeywords false) node) (blockItems (c.withKeywords true) node) :=
  interspersed_ite ((Interspersed.of_forall fun _ hi => isKeyword_of_mem_map hi).append
    (.refl _ (symbolItems c node)))

theorem interspersed_programItems : Interspersed CompletionItem.IsKeyword
    (programItems (c.withKeywords false) node) (programItems (c.withKeywords true) node) :=
  interspersed_ite ((Interspersed.of_forall fun _ hi => isKeyword_of_mem_map hi).append
    (.refl _ (symbolItems c node)))

/-- **A provider** offers keywords and snippets besides. The others do not look at the setting. -/
theorem interspersed_offer (p : Provider) : Interspersed CompletionItem.IsKeyword
    (p.offer (c.withKeywords false) node) (p.offer (c.withKeywords true) node) := by
  cases p with
  | shaderScope => exact interspersed_shaderScopeItems c node
  | renderBlock => exact interspersed_renderBlockItems c node
  | block => exact interspersed_blockItems c node
  | program => exact interspersed_programItems c node
  | property | tagsScope | tag | renderSetup | pragma | declaration | declarator | unit | accessor => exact .refl _ _

end Completion

/-! ### Carets -/

namespace Caret

variable (g : CompiledGrammar) (c : Caret)

theorem tree_withKeywords (enabled : Bool) : (c.withKeywords enabled).tree = c.tree := rfl

theorem innermost_withKeywords (enabled : Bool) : (c.withKeywords enabled).innermost = c.innermost := rfl

theorem interspersed_offerOf (owner node : NodeId) : Interspersed CompletionItem.IsKeyword
    ((c.withKeywords false).offerOf g owner node) ((c.withKeywords true).offerOf g owner node) := by
  unfold offerOf
  rw [tree_withKeywords, tree_withKeywords]
  split
  · exact Completion.interspersed_offer c node _
  · exact .nil

theorem interspersed_offersAt (id : NodeId) : Interspersed CompletionItem.IsKeyword
    ((c.withKeywords false).offersAt g id) ((c.withKeywords true).offersAt g id) := by
  unfold offersAt
  rw [tree_withKeywords, tree_withKeywords]
  rcases c.tree.node? id with _ | node
  · exact .nil
  · dsimp only
    rw [innermost_withKeywords, innermost_withKeywords]
    refine .append (Completion.interspersed_ite (.flatMap (fun owner => ?_) _)) (Completion.interspersed_ite ?_)
    · exact c.interspersed_offerOf g owner id
    · exact c.interspersed_offerOf g id id

end Caret

/-! ### Completion -/

/-- Two lists of items that differ by keywords only. -/
structure OnlyAddsKeywords (plain full : List CompletionItem) : Prop where
  /-- No label is lost. -/
  labels : ∀ i ∈ plain, ∃ j ∈ full, j.label = i.label
  /-- An item with a new label is a keyword or a snippet. -/
  added : ∀ i ∈ full, (∀ j ∈ plain, j.label ≠ i.label) → i.IsKeyword
  /-- All other items were there before. -/
  others : ∀ i ∈ full, ¬ i.IsKeyword → i ∈ plain

/-- **Keywords that are put in** take the place of items with their labels only. -/
theorem onlyAddsKeywords_arrange {plain full : List CompletionItem}
    (h : Interspersed CompletionItem.IsKeyword plain full) :
    OnlyAddsKeywords (CompletionItem.arrange plain) (CompletionItem.arrange full) where
  labels i hi := by
    refine CompletionItem.exists_mem_arrange_iff.mpr ⟨i, ?_, rfl⟩
    exact h.subset (CompletionItem.mem_of_mem_arrange hi)
  added i hi hnew := by
    refine (h.mem_or (CompletionItem.mem_of_mem_arrange hi)).resolve_left fun hmem => ?_
    obtain ⟨j, hj, hlabel⟩ := CompletionItem.exists_mem_arrange_iff.mpr ⟨i, hmem, rfl⟩
    exact hnew j hj hlabel
  others i hi hother := by
    rw [CompletionItem.mem_arrange_iff] at hi ⊢
    exact (CompletionItem.interspersed_ordered h).find? hi hother

theorem Caret.onlyAddsKeywords_items (g : CompiledGrammar) (c : Caret) :
    OnlyAddsKeywords ((c.withKeywords false).items g) ((c.withKeywords true).items g) := by
  unfold Caret.items Caret.offers
  rw [tree_withKeywords, tree_withKeywords]
  split_ifs
  · exact ⟨fun _ h => absurd h List.not_mem_nil, fun _ h => absurd h List.not_mem_nil,
      fun _ h => absurd h List.not_mem_nil⟩
  · rw [innermost_withKeywords, innermost_withKeywords]
    exact onlyAddsKeywords_arrange (.flatMap (c.interspersed_offersAt g) _)

/-- **Turning keywords on** adds keywords and snippets to the items at a position, which may take the place of items
with the same label, and adds nothing else. -/
theorem Assistant.complete_withKeywords (a : Assistant) (d : Document) (position : Position) (offset : Nat)
    (h : d.offsetAt position = .ok offset) : ∃ plain full : Traced (List CompletionItem),
      (a.withKeywords false).complete d position = .ok plain ∧ (a.withKeywords true).complete d position = .ok full ∧
        OnlyAddsKeywords plain.value full.value := by
  unfold Assistant.complete
  rw [h]
  exact ⟨_, _, rfl, rfl, (a.caret (a.analyse d).value offset).onlyAddsKeywords_items a.grammar⟩

/-- Blocks in which the keywords and the symbols of Cg are offered. -/
def offeringGrammar : Grammar where
  patterns := [.named "Block" ["\x7bblock\x7d"]]
  scopeRepository := [("block", { opening := "\x7b", closing := "\x7d", provider := some .block })]

/-- An empty block. -/
def emptyBlock : Document :=
  .ofString "\x7b\n\x7d"

/-- Which labels are shown in a document with a tree. -/
theorem Assistant.exists_mem_complete_iff {a : Assistant} {d : Document} {position : Position} {offset : Nat}
    (h : d.offsetAt position = .ok offset) {r : Traced (List CompletionItem)} (hr : a.complete d position = .ok r)
    (htree : (a.analyse d).value.tree.isEmpty = false) {label : String} : (∃ i ∈ r.value, i.label = label) ↔
      ((a.caret (a.analyse d).value offset).offers a.grammar).any fun i => i.label == label := by
  unfold Assistant.complete at hr
  rw [h] at hr
  have hvalue : r.value = CompletionItem.arrange ((a.caret (a.analyse d).value offset).offers a.grammar) := by
    rw [← Except.ok.inj hr]
    exact if_neg (ne_true_of_eq_false htree)
  rw [hvalue, CompletionItem.exists_mem_arrange_iff, List.any_eq_true]
  simp only [beq_iff_eq]

/-- Whether a label is offered in an empty block, with keywords or without them. -/
def offeredInBlock (g : CompiledGrammar) (enabled : Bool) (label : String) : Bool :=
  let a := Assistant.withKeywords ⟨g, .builtin, {}⟩ enabled
  ((a.caret (a.analyse emptyBlock).value 2).offers g).any fun i => i.label == label

/-- Inside an empty block keywords come besides the types. -/
theorem Assistant.complete_withKeywords_emptyBlock : ∃ g, offeringGrammar.compile .standard = .ok g ∧
    emptyBlock.offsetAt ⟨1, 0⟩ = .ok 2 ∧ ∃ plain full : Traced (List CompletionItem),
      (withKeywords ⟨g, .builtin, {}⟩ false).complete emptyBlock ⟨1, 0⟩ = .ok plain ∧
      (withKeywords ⟨g, .builtin, {}⟩ true).complete emptyBlock ⟨1, 0⟩ = .ok full ∧
        (∃ i ∈ plain.value, i.label = "float") ∧ (∀ i ∈ plain.value, i.label ≠ "return") ∧
          (∃ i ∈ full.value, i.label = "return" ∧ i.IsKeyword) ∧ OnlyAddsKeywords plain.value full.value := by
  have hoffset : emptyBlock.offsetAt ⟨1, 0⟩ = .ok 2 := by rfl
  have heval : ((offeringGrammar.compile .standard).toOption.map fun g =>
      (((withKeywords ⟨g, .builtin, {}⟩ false).analyse emptyBlock).value.tree.isEmpty,
        ((withKeywords ⟨g, .builtin, {}⟩ true).analyse emptyBlock).value.tree.isEmpty,
        offeredInBlock g false "float", offeredInBlock g false "return", offeredInBlock g true "return")) =
      some (false, false, true, false, true) := by
    decide +kernel
  rcases hg : offeringGrammar.compile .standard with e | g
  · rw [hg] at heval
    cases heval
  · rw [hg] at heval
    simp only [Except.toOption, Option.map_some, Option.some.injEq, Prod.mk.injEq] at heval
    obtain ⟨hplainTree, hfullTree, htype, hnone, hkeyword⟩ := heval
    obtain ⟨plain, full, hplain, hfull, hadds⟩ := complete_withKeywords ⟨g, .builtin, {}⟩ emptyBlock ⟨1, 0⟩ 2 hoffset
    have hnew : ∀ i ∈ plain.value, i.label ≠ "return" := fun i hi hlabel =>
      ne_true_of_eq_false hnone ((exists_mem_complete_iff hoffset hplain hplainTree).mp ⟨i, hi, hlabel⟩)
    obtain ⟨i, hi, hlabel⟩ := (exists_mem_complete_iff hoffset hfull hfullTree).mpr hkeyword
    refine ⟨g, rfl, hoffset, plain, full, hplain, hfull,
      (exists_mem_complete_iff hoffset hplain hplainTree).mpr htype, hnew, ⟨i, hi, hlabel, ?_⟩, hadds⟩
    refine hadds.added i hi fun j hj => ?_
    rw [hlabel]
    exact hnew j hj

end ShaderAssist

import ShaderAssist.Proofs.Cg.Lexical
import ShaderAssist.Proofs.Symbols.Scoping

/-!
# Isolation of scopes

The scopes of every matched document are lexical (`lexical_after`), so the variables that are visible at a place
belong to a context around it or to an include block of the shader, and what belongs to a function is visible
inside its body only (`ofMatched_isolated`). A function can lie in the body of another one, where it sees what
belongs to that one (`visible_in_nested_function`).
-/

namespace ShaderAssist

namespace Symbols

variable {m : MatchedDocument} {v : Vocabulary} {node : NodeId} {s s' : Symbols}

/-! ### Collecting keeps scopes lexical -/

theorem Scoping.lexical {σ : Cg.Scopes} {symbol : Option Symbol} (hs : Scoping m node s σ symbol)
    (ha : s.links.Agree) (hl : s.cg.scopes.Lexical s.includesOf) : σ.Lexical s.includesOf := by
  cases hs with
  | same => exact hl
  | «variable» _ hid =>
    exact hl.declare (List.forall_mem_singleton.mpr hid.owner)
      (List.forall_mem_singleton.mpr fun f hf => absurd hf (hid.parameters f))
  | function f _ => exact hl.addFunction _ f
  | parameter _ hid => exact hl.addParameter hid _
  | @bodyParameter f k id hbody hid =>
    refine (hl.addParameter hid f).declare (List.forall_mem_singleton.mpr hid.owner)
      (List.forall_mem_singleton.mpr fun g hg => ?_)
    rcases Cg.Scopes.mem_addParameter.mp hg with hg | ⟨rfl, -⟩
    · exact absurd hg (hid.parameters g)
    · exact hbody
  | block _ hprogram hk => exact hl.nest hk hprogram
  | @body f k u x _ hprogram hk hbody =>
    have hupper : ((s.cg.scopes.nest k u x).upper k).isSome := by simp [Cg.Scopes.nest]
    have hset := (hl.nest hk hprogram).setBody hbody hupper hk.body_ne
    refine hset.declare (fun id hid => ?_) fun id hid g hg => ?_
    · have hnone := hl.parameter hid
      rwa [hbody, or_self] at hnone
    · obtain rfl := hl.parameter_unique hid hg
      exact Function.update_self _ _ _
  | @program x k hx hk =>
    have hself : (s.cg.scopes.addProgram x k (s.shaderAround? m.tree node)).shader x =
        s.shaderAround? m.tree node := Function.update_self _ _ _
    have houter : (s.cg.scopes.addProgram x k (s.shaderAround? m.tree node)).outermost x = some k :=
      Function.update_self _ _ _
    have himport := (hl.addProgram hx hk (s.shaderAround? m.tree node)).importAll houter
    rw [hself] at himport
    refine himport fun i hi => ?_
    have hshader := ha.shader_of_mem_includesOf hi
    have hne : i ≠ x := by
      rintro rfl
      obtain ⟨k', -, hk', -⟩ := mem_includesOf_iff.mp hi
      rw [hk', hx.shader] at hshader
      exact Option.some_ne_none _ hshader.symm
    exact (Function.update_of_ne hne _ _).trans hshader

theorem lexical_empty : ({} : Symbols).cg.scopes.Lexical ({} : Symbols).includesOf := by
  constructor <;> simp [Cg.Table.scopes, Cg.Table.contextAt?, Cg.Table.globalAt?, Cg.Table.functionAt?,
    Cg.Table.variablesOf]

/-- **Scopes are lexical** at any time. -/
theorem lexical_after (m : MatchedDocument) (v : Vocabulary) (done : List (NodeId × Collector)) :
    (after m v done).cg.scopes.Lexical (after m v done).includesOf := by
  induction done using List.reverseRecOn with
  | nil => exact lexical_empty
  | append_singleton done entry ih =>
    obtain ⟨symbol, hscoping, -⟩ := rescopes_after m v done entry
    exact (hscoping.lexical (agree_after m v done) ih).mono (includesOf_after_subset m v done entry)

/-! ### Visible variables -/

/-- What is visible in the programs of a document. -/
structure Isolated (s : Symbols) : Prop where
  /-- A visible variable belongs to the place or to a context around it. Else it is listed in the outermost
  context of the program, and belongs to the outermost context of an include block of the shader. -/
  visible : ∀ ⦃d id⦄, id ∈ s.cg.visibleVariables d → ∃ k, s.cg.scopes.owner id = some k ∧
    (s.cg.scopes.Inside d k ∨ ∃ x top, s.cg.scopes.program d = some x ∧ s.cg.scopes.outermost x = some top ∧
      id ∈ s.cg.scopes.vars top ∧
      ∃ i ∈ s.includesOf (s.cg.scopes.shader x), s.cg.scopes.outermost i = some k)
  /-- Parameters of a function and what is declared inside its body are visible nowhere else, -/
  locals : ∀ ⦃f d id⦄, s.cg.scopes.IsLocal f id → id ∈ s.cg.visibleVariables d →
    ∃ b, s.cg.scopes.body f = some b ∧ s.cg.scopes.Inside d b
  /-- and functions do not share a body. -/
  bodies : ∀ ⦃f g b⦄, s.cg.scopes.body f = some b → s.cg.scopes.body g = some b → f = g

/-- **Scopes are isolated** in every matched document. -/
theorem ofMatched_isolated (m : MatchedDocument) (v : Vocabulary) (g : CompiledGrammar) :
    (ofMatched m v g).Isolated := by
  have h : (ofMatched m v g).cg.scopes.Lexical (ofMatched m v g).includesOf := lexical_after m v (plan g m.tree)
  exact ⟨fun _ _ => h.of_visible, fun _ _ _ => h.inside_of_isLocal, fun _ _ _ => h.body_unique⟩

/-- A program with a function `f` that has a parameter `a`, in the body of which there is a function `g`. -/
def nestedFunctions : MatchedDocument where
  document := .ofString "int f(int a){int g(){}}"
  tree :=
    let word (name : String) (start stop : Nat) : Match :=
      .node ⟨none, .item, .matched, start, stop, some name⟩ []
    let definition (origin : Origin) (start stop : Nat) (parts : List Match) : Match :=
      .node ⟨none, origin, .matched, start, stop, none⟩ parts
    .ofMatch <| definition (.scope ⟨0⟩) 0 23 [
      definition (.pattern ⟨0⟩) 0 23 [word "type" 0 3, word "name" 4 5,
        definition (.pattern ⟨1⟩) 6 11 [word "type" 6 9, word "name" 10 11],
        definition (.scope ⟨1⟩) 12 23 [
          definition (.pattern ⟨0⟩) 13 22 [word "type" 13 16, word "name" 17 18,
            definition (.scope ⟨1⟩) 20 22 []]]]]

/-- A grammar whose patterns are functions and parameters, and whose scopes are programs and blocks. -/
def functionGrammar : CompiledGrammar where
  name := none
  items := #[]
  patterns := #[⟨none, none, some .function, none⟩, ⟨none, none, some .parameter, none⟩]
  scopes := #[⟨none, some .program, none⟩, ⟨none, some .block, none⟩]

/-- **A nested function** sees the parameters of the function around it. -/
theorem visible_in_nested_function :
    let cg := (ofMatched nestedFunctions default functionGrammar).cg
    cg.functionName ⟨0⟩ = "f" ∧ cg.functionName ⟨1⟩ = "g" ∧ cg.scopes.body ⟨1⟩ = some ⟨2⟩ ∧
      ⟨0⟩ ∈ cg.scopes.parameters ⟨0⟩ ∧ ⟨0⟩ ∈ cg.visibleVariables ⟨2⟩ := by
  decide +kernel

end Symbols

end ShaderAssist

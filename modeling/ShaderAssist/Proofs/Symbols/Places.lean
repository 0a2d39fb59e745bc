import ShaderAssist.Proofs.Cg.Lexical
import ShaderAssist.Proofs.Match.Preorder
import ShaderAssist.Proofs.Symbols.Scoping

/-!
# Places of scopes

A program stands at one node, and the contexts of the program stand at nodes below that one (`Symbols.Placed`).
So a collector at a node elsewhere finds other programs and contexts around it, and leaves the functions and
the outermost variables of the program alone (`Scoping.keeps`). Whatever a collector does, scopes only grow
(`Scoping.grows`).
-/

namespace ShaderAssist

/-! ### Growing scopes -/

namespace Cg

namespace Scopes

variable {σ τ υ : Scopes} {k : ContextId} {i x : GlobalId}

/-- Scopes that have all that other scopes have. -/
structure Grows (σ τ : Scopes) : Prop where
  functions : ∀ x, σ.functions x ⊆ τ.functions x
  vars : ∀ k, σ.vars k ⊆ τ.vars k
  context : ∀ {k x}, σ.program k = some x → τ.program k = some x ∧ τ.upper k = σ.upper k
  program : ∀ {x k}, σ.outermost x = some k → τ.outermost x = some k ∧ τ.shader x = σ.shader x

theorem Grows.refl (σ : Scopes) : σ.Grows σ :=
  ⟨fun _ => List.Subset.refl _, fun _ => List.Subset.refl _, fun h => ⟨h, rfl⟩, fun h => ⟨h, rfl⟩⟩

theorem Grows.trans (h : σ.Grows τ) (h' : τ.Grows υ) : σ.Grows υ := by
  refine ⟨fun x => List.Subset.trans (h.functions x) (h'.functions x),
    fun k => List.Subset.trans (h.vars k) (h'.vars k), ?_, ?_⟩
  · intro k x hx
    obtain ⟨hprogram, hupper⟩ := h.context hx
    exact ⟨(h'.context hprogram).1, (h'.context hprogram).2.trans hupper⟩
  · intro x k hk
    obtain ⟨houtermost, hshader⟩ := h.program hk
    exact ⟨(h'.program houtermost).1, (h'.program houtermost).2.trans hshader⟩

theorem Grows.outerVars (h : σ.Grows τ) (x : GlobalId) : σ.outerVars x ⊆ τ.outerVars x := by
  unfold Scopes.outerVars
  rcases hk : σ.outermost x with _ | k
  · exact List.nil_subset _
  · rw [(h.program hk).1]
    exact h.vars k

theorem grows_declare (σ : Scopes) (k : ContextId) (ids : List VariableId) : σ.Grows (σ.declare k ids) :=
  { Grows.refl σ with vars := subset_update (List.subset_append_left _ _) }

theorem grows_addFunction (σ : Scopes) (x : GlobalId) (f : FunctionId) : σ.Grows (σ.addFunction x f) :=
  { Grows.refl σ with functions := subset_update (List.subset_append_left _ _) }

theorem grows_nest (hk : σ.IsFreshContext k) (u : ContextId) (x : GlobalId) : σ.Grows (σ.nest k u x) where
  __ := Grows.refl σ
  context := by
    intro c y hy
    have hne := hk.ne_of_program hy
    exact ⟨(Function.update_of_ne hne _ _).trans hy, Function.update_of_ne hne _ _⟩

theorem grows_addProgram (hx : σ.IsFreshProgram x) (hk : σ.IsFreshContext k) (shader : Option ShaderId) :
    σ.Grows (σ.addProgram x k shader) where
  __ := Grows.refl σ
  context := by
    intro c y hy
    have hne := hk.ne_of_program hy
    exact ⟨(Function.update_of_ne hne _ _).trans hy, rfl⟩
  program := by
    intro y c hc
    have hne := hx.ne_of_outermost hc
    exact ⟨(Function.update_of_ne hne _ _).trans hc, Function.update_of_ne hne _ _⟩

theorem grows_importAll (σ : Scopes) (x : GlobalId) (k : ContextId) (sources : List GlobalId) :
    σ.Grows (σ.importAll x k sources) where
  __ := Grows.refl σ
  functions := subset_update (subset_foldl_appendNew _ _).1
  vars := subset_update (subset_foldl_appendNew _ _).1

/-- A program has the functions and the outermost variables of another one. -/
def Sees (σ : Scopes) (x i : GlobalId) : Prop :=
  σ.functions i ⊆ σ.functions x ∧ σ.outerVars i ⊆ σ.outerVars x

theorem Sees.of_grows (h : σ.Sees x i) (hgrows : σ.Grows τ) (hfunctions : τ.functions i = σ.functions i)
    (hvars : τ.outerVars i = σ.outerVars i) : τ.Sees x i := by
  constructor
  · rw [hfunctions]
    exact List.Subset.trans h.1 (hgrows.functions x)
  · rw [hvars]
    exact List.Subset.trans h.2 (hgrows.outerVars x)

/-- A new program sees the programs that it imports. -/
theorem sees_importAll {sources : List GlobalId} (hk : σ.outermost x = some k) (hi : i ∈ sources) (hix : i ≠ x)
    (hik : σ.outermost i ≠ some k) : (σ.importAll x k sources).Sees x i := by
  constructor
  · intro f hf
    have hf' : f ∈ σ.functions i := by simpa [importAll, Function.update_of_ne hix] using hf
    simp only [importAll, Function.update_self]
    exact (subset_foldl_appendNew _ _).2 (List.mem_flatMap.mpr ⟨i, hi, hf'⟩)
  · intro w hw
    rw [outerVars_importAll hik] at hw
    simp only [outerVars, importAll, hk, Option.map_some, Option.getD_some, Function.update_self]
    exact (subset_foldl_appendNew _ _).2 (List.mem_flatMap.mpr ⟨i, hi, hw⟩)

end Scopes

end Cg

namespace Symbols

variable {m : MatchedDocument} {node a y z : NodeId} {s s' : Symbols} {σ : Cg.Scopes} {symbol : Option Symbol}
  {i x : Cg.GlobalId} {k top : Cg.ContextId} {t : MatchTree}

theorem Scoping.grows (hs : Scoping m node s σ symbol) : s.cg.scopes.Grows σ := by
  have hparameter (f : Cg.FunctionId) (id : Cg.VariableId) :
      s.cg.scopes.Grows (s.cg.scopes.addParameter f id) := { Cg.Scopes.Grows.refl s.cg.scopes with }
  cases hs with
  | same => exact .refl _
  | «variable» _ _ => exact Cg.Scopes.grows_declare _ _ _
  | function f _ => exact Cg.Scopes.grows_addFunction _ _ f
  | parameter _ _ => exact hparameter _ _
  | bodyParameter _ _ => exact (hparameter _ _).trans (Cg.Scopes.grows_declare _ _ _)
  | block _ _ hk => exact Cg.Scopes.grows_nest hk _ _
  | @body f k u x _ _ hk _ =>
    have hbody : s.cg.scopes.Grows ((s.cg.scopes.nest k u x).setBody f k) :=
      { Cg.Scopes.grows_nest hk u x with }
    exact hbody.trans (Cg.Scopes.grows_declare _ _ _)
  | program hx hk => exact (Cg.Scopes.grows_addProgram hx hk _).trans (Cg.Scopes.grows_importAll _ _ _ _)

/-! ### What is around a node -/

/-- What is found around a node comes from the symbol of the node or of one above it. -/
theorem exists_above_of_find {α : Type} {f : Symbol → Option α} {r : α} (h : s.find t node f = some r) :
    ∃ y ∈ node :: t.ancestors node, ∃ symbol, s.state? y = some symbol ∧ f symbol = some r := by
  obtain ⟨y, hy, hr⟩ := List.exists_of_findSome?_eq_some h
  obtain ⟨symbol, hsymbol, hf⟩ := Option.bind_eq_some_iff.mp hr
  exact ⟨y, hy, symbol, hsymbol, hf⟩

/-- The context around a node is one that a node above stands for, or the outermost one of a program. -/
theorem exists_above_of_contextAround? (h : s.contextAround? t node = some k) :
    ∃ y ∈ node :: t.ancestors node, (y, Symbol.context k) ∈ s.states ∨
      ∃ x, (y, Symbol.global x) ∈ s.states ∧ s.cg.scopes.outermost x = some k := by
  obtain ⟨y, hy, symbol, hsymbol, hf⟩ := exists_above_of_find h
  have hmem := mem_states_of_state? hsymbol
  cases symbol with
  | context id => exact ⟨y, hy, Or.inl (Option.some.inj hf ▸ hmem)⟩
  | global id => exact ⟨y, hy, Or.inr ⟨id, hmem, hf⟩⟩
  | _ => cases hf

/-- The program around a node is one that a node above stands for, or that of a context. -/
theorem exists_above_of_globalAround? (h : s.globalAround? t node = some x) :
    ∃ y ∈ node :: t.ancestors node, (y, Symbol.global x) ∈ s.states ∨
      ∃ k, (y, Symbol.context k) ∈ s.states ∧ s.cg.scopes.program k = some x := by
  obtain ⟨y, hy, symbol, hsymbol, hf⟩ := exists_above_of_find h
  have hmem := mem_states_of_state? hsymbol
  cases symbol with
  | global id => exact ⟨y, hy, Or.inl (Option.some.inj hf ▸ hmem)⟩
  | context id => exact ⟨y, hy, Or.inr ⟨id, hmem, hf⟩⟩
  | _ => cases hf

theorem mem_above_trans (h : t.ParentsFirst) (hy : y ∈ node :: t.ancestors node) (hz : z ∈ y :: t.ancestors y) :
    z ∈ node :: t.ancestors node := by
  rcases List.mem_cons.mp hy with rfl | hy
  · exact hz
  · refine List.mem_cons_of_mem _ ?_
    rcases List.mem_cons.mp hz with rfl | hz
    · exact hy
    · exact MatchTree.mem_ancestors_trans h hz hy

/-! ### Places -/

/-- Every program has its node, and the contexts inside it are at nodes below. -/
structure Placed (t : MatchTree) (s : Symbols) : Prop where
  program : ∀ {x y z}, (y, Symbol.global x) ∈ s.states → (z, Symbol.global x) ∈ s.states → y = z
  context : ∀ {k y}, (y, Symbol.context k) ∈ s.states → (s.cg.scopes.upper k).isSome ∧
    ∃ x, s.cg.scopes.program k = some x ∧ ∃ z ∈ y :: t.ancestors y, (z, Symbol.global x) ∈ s.states

theorem placed_empty (t : MatchTree) : ({} : Symbols).Placed t :=
  ⟨by simp, by simp⟩

section Placed

variable {includes : Option ShaderId → List Cg.GlobalId}

/-- Where the context around a node is in a program, the node of the program is above. -/
theorem Placed.exists_program (hp : s.Placed t) (hl : s.cg.scopes.Lexical includes) (ht : t.ParentsFirst)
    (hk : s.contextAround? t node = some k) (hx : s.cg.scopes.program k = some x) :
    ∃ z ∈ node :: t.ancestors node, (z, Symbol.global x) ∈ s.states := by
  obtain ⟨y, hy, hcontext | ⟨x', hx', houtermost⟩⟩ := exists_above_of_contextAround? hk
  · obtain ⟨-, x', hx', z, hz, hmem⟩ := hp.context hcontext
    obtain rfl := Option.some.inj (hx.symm.trans hx')
    exact ⟨z, mem_above_trans ht hy hz, hmem⟩
  · obtain rfl := Option.some.inj (hx.symm.trans (hl.outermost houtermost).2)
    exact ⟨y, hy, hx'⟩

/-- A node that comes to stand for a program stands for a new one. -/
theorem Scoping.isFreshProgram (hs : Scoping m node s σ (some (.global x))) :
    s.cg.scopes.IsFreshProgram x := by
  cases hs with
  | program hx _ => exact hx

/-- A node that comes to stand for a context stands for one in the context around it. -/
theorem Scoping.exists_upper (hs : Scoping m node s σ (some (.context k))) :
    ∃ u x, s.contextAround? m.tree node = some u ∧ s.cg.scopes.program u = some x ∧ σ.upper k = some u ∧
      σ.program k = some x := by
  cases hs with
  | @block _ u x hu hx _ => exact ⟨u, x, hu, hx, Function.update_self _ _ _, Function.update_self _ _ _⟩
  | @body _ _ u x hu hx _ _ => exact ⟨u, x, hu, hx, Function.update_self _ _ _, Function.update_self _ _ _⟩

/-- Collecting keeps places. -/
theorem Placed.collect (hp : s.Placed m.tree) (hl : s.cg.scopes.Lexical includes) (ht : m.tree.ParentsFirst)
    (h : s.InRange) (hs : Scoping m node s s'.cg.scopes symbol) (hplaces : Places node symbol s s') :
    s'.Placed m.tree := by
  constructor
  · intro x y z hy hz
    -- a program that a node stands for is not a new one
    have hold : ∀ {y}, (y, Symbol.global x) ∈ s.states → symbol ≠ some (.global x) := by
      rintro y hy rfl
      obtain ⟨g, hg⟩ : ∃ g, s.cg.globalAt? x = some g := ⟨_, Array.getElem?_eq_getElem (h.states _ hy)⟩
      have hnone := hs.isFreshProgram.outermost
      simp [Cg.Table.scopes, hg] at hnone
    rcases hplaces.only _ hy rfl with hy | ⟨rfl, hsymbol⟩
    · rcases hplaces.only _ hz rfl with hz | ⟨-, hsymbol⟩
      · exact hp.program hy hz
      · exact absurd hsymbol (hold hy)
    · rcases hplaces.only _ hz rfl with hz | ⟨rfl, -⟩
      · exact absurd hsymbol (hold hz)
      · rfl
  · intro k y hy
    rcases hplaces.only _ hy rfl with hy | ⟨rfl, rfl⟩
    · obtain ⟨hupper, x, hx, z, hz, hmem⟩ := hp.context hy
      obtain ⟨hx', hupper'⟩ := hs.grows.context hx
      exact ⟨hupper'.symm ▸ hupper, x, hx', z, hz, hplaces.kept _ hmem⟩
    · obtain ⟨u, x, hu, hx, hupper, hx'⟩ := hs.exists_upper
      obtain ⟨z, hz, hmem⟩ := hp.exists_program hl ht hu hx
      exact ⟨hupper ▸ rfl, x, hx', z, hz, hplaces.kept _ hmem⟩

/-! ### Programs elsewhere -/

section Elsewhere

variable (hp : s.Placed t) (hi : (a, Symbol.global i) ∈ s.states) (ha : a ∉ node :: t.ancestors node)

include hp hi ha

theorem Placed.globalAround?_ne (ht : t.ParentsFirst) : s.globalAround? t node ≠ some i := by
  intro hglobal
  obtain ⟨y, hy, hprogram | ⟨k, hk, hx⟩⟩ := exists_above_of_globalAround? hglobal
  · exact ha (hp.program hprogram hi ▸ hy)
  · obtain ⟨-, x, hx', z, hz, hmem⟩ := hp.context hk
    obtain rfl := Option.some.inj (hx.symm.trans hx')
    exact ha (hp.program hmem hi ▸ mem_above_trans ht hy hz)

theorem Placed.contextAround?_ne (hl : s.cg.scopes.Lexical includes)
    (htop : s.cg.scopes.outermost i = some top) :
    s.contextAround? t node ≠ some top := by
  intro hcontext
  obtain ⟨hupper, hprogram⟩ := hl.outermost htop
  obtain ⟨y, hy, hk | ⟨x, hx, hk⟩⟩ := exists_above_of_contextAround? hcontext
  · have hsome := (hp.context hk).1
    rw [hupper] at hsome
    exact Bool.false_ne_true hsome
  · obtain rfl := Option.some.inj (hprogram.symm.trans (hl.outermost hk).2)
    exact ha (hp.program hx hi ▸ hy)

end Elsewhere

/-- **What is collected elsewhere** leaves the functions and the outermost variables of a program alone. -/
theorem Scoping.keeps (hs : Scoping m node s σ symbol) (hl : s.cg.scopes.Lexical includes)
    (htop : s.cg.scopes.outermost i = some top) (hglobal : s.globalAround? m.tree node ≠ some i)
    (hcontext : s.contextAround? m.tree node ≠ some top) :
    σ.functions i = s.cg.scopes.functions i ∧ σ.outerVars i = s.cg.scopes.outerVars i := by
  suffices hkeeps : σ.functions i = s.cg.scopes.functions i ∧ σ.vars top = s.cg.scopes.vars top by
    refine ⟨hkeeps.1, ?_⟩
    simp only [Cg.Scopes.outerVars, htop, (hs.grows.program htop).1, Option.map_some, Option.getD_some]
    exact hkeeps.2
  have hfresh : ∀ {k}, s.cg.scopes.IsFreshContext k → top ≠ k := by
    rintro k hk rfl
    exact hk.outermost_ne i htop
  cases hs with
  | same => exact ⟨rfl, rfl⟩
  | @«variable» k _ hk _ =>
    have hne : top ≠ k := by
      rintro rfl
      exact hcontext hk
    exact ⟨rfl, Function.update_of_ne hne _ _⟩
  | @function x f hx =>
    have hne : i ≠ x := by
      rintro rfl
      exact hglobal hx
    exact ⟨Function.update_of_ne hne _ _, rfl⟩
  | parameter _ _ => exact ⟨rfl, rfl⟩
  | @bodyParameter f k id hk _ =>
    -- a body is in another context, and the outermost one is not
    have hne : top ≠ k := by
      rintro rfl
      have hsome := hl.body hk
      rw [(hl.outermost htop).1] at hsome
      exact Bool.false_ne_true hsome
    exact ⟨rfl, Function.update_of_ne hne _ _⟩
  | block _ _ _ => exact ⟨rfl, rfl⟩
  | body _ _ hk _ => exact ⟨rfl, Function.update_of_ne (hfresh hk) _ _⟩
  | @program x k hx hk =>
    exact ⟨Function.update_of_ne (hx.ne_of_outermost htop) _ _, Function.update_of_ne (hfresh hk) _ _⟩

end Placed

end Symbols

end ShaderAssist

import ShaderAssist.Proofs.Cg.Scopes
import ShaderAssist.Proofs.Symbols.Links

/-!
# What collecting does to scopes

A collector has one of a few effects on the scopes of the programs (`Symbols.Scoping`), each of which takes
place where its node is: in the context, the function, the program or the shader around it. At most one node
comes to stand for a context or a program by it, its own (`Symbols.Places`).
-/

namespace ShaderAssist

/-- Whether a symbol is a context or a program. -/
def Symbol.isScope : Symbol → Bool
  | .context _ | .global _ => true
  | _ => false

namespace Symbols

variable {m : MatchedDocument} {v : Vocabulary} {node : NodeId} {s s' : Symbols}

/-! ### Effects on scopes -/

/-- A collector at a node leads to new scopes, in which the node stands for a context or a program. -/
inductive Scoping (m : MatchedDocument) (node : NodeId) (s : Symbols) : Cg.Scopes → Option Symbol → Prop where
  | same : Scoping m node s s.cg.scopes none
  | variable {k : Cg.ContextId} {id : Cg.VariableId} : s.contextAround? m.tree node = some k →
    s.cg.scopes.IsFreshVariable id → Scoping m node s (s.cg.scopes.declare k [id]) none
  | function {x : Cg.GlobalId} (f : Cg.FunctionId) : s.globalAround? m.tree node = some x →
    Scoping m node s (s.cg.scopes.addFunction x f) none
  | parameter {f : Cg.FunctionId} {id : Cg.VariableId} : s.cg.scopes.body f = none →
    s.cg.scopes.IsFreshVariable id → Scoping m node s (s.cg.scopes.addParameter f id) none
  | bodyParameter {f : Cg.FunctionId} {k : Cg.ContextId} {id : Cg.VariableId} :
    s.cg.scopes.body f = some k → s.cg.scopes.IsFreshVariable id →
    Scoping m node s ((s.cg.scopes.addParameter f id).declare k [id]) none
  | block {k u : Cg.ContextId} {x : Cg.GlobalId} : s.contextAround? m.tree node = some u →
    s.cg.scopes.program u = some x → s.cg.scopes.IsFreshContext k →
    Scoping m node s (s.cg.scopes.nest k u x) (some (.context k))
  | body {f : Cg.FunctionId} {k u : Cg.ContextId} {x : Cg.GlobalId} : s.contextAround? m.tree node = some u →
    s.cg.scopes.program u = some x → s.cg.scopes.IsFreshContext k → s.cg.scopes.body f = none →
    Scoping m node s (((s.cg.scopes.nest k u x).setBody f k).declare k (s.cg.scopes.parameters f))
      (some (.context k))
  | program {x : Cg.GlobalId} {k : Cg.ContextId} : s.cg.scopes.IsFreshProgram x →
    s.cg.scopes.IsFreshContext k → Scoping m node s
      ((s.cg.scopes.addProgram x k (s.shaderAround? m.tree node)).importAll x k
        (s.includesOf (s.shaderAround? m.tree node))) (some (.global x))

/-- A node comes to stand for a context or a program, and no other one does. -/
structure Places (node : NodeId) (symbol : Option Symbol) (s s' : Symbols) : Prop where
  kept : ∀ e ∈ s.states, e ∈ s'.states
  placed : ∀ y ∈ symbol, (node, y) ∈ s'.states
  only : ∀ e ∈ s'.states, e.2.isScope → e ∈ s.states ∨ e.1 = node ∧ symbol = some e.2

theorem places_none (h : s'.states = s.states) : Places node none s s' :=
  ⟨fun e he => h ▸ he, by simp, fun e he _ => Or.inl (h ▸ he)⟩

theorem places_mark {y : Symbol} (h : s'.states = (node, y) :: s.states) (hy : y.isScope = false) :
    Places node none s s' := by
  refine ⟨fun e he => h ▸ List.mem_cons_of_mem _ he, by simp, fun e he hscope => ?_⟩
  rw [h] at he
  rcases List.mem_cons.mp he with rfl | he
  · exact absurd hscope (by simp [hy])
  · exact Or.inl he

theorem places_some {y : Symbol} (h : s'.states = (node, y) :: s.states) : Places node (some y) s s' := by
  refine ⟨fun e he => h ▸ List.mem_cons_of_mem _ he, fun z hz => ?_, fun e he _ => ?_⟩
  · rw [h, ← Option.some.inj hz]
    exact List.mem_cons_self
  · rw [h] at he
    rcases List.mem_cons.mp he with rfl | he
    · exact Or.inr ⟨rfl, rfl⟩
    · exact Or.inl he

/-- The effect of a collector. -/
def Rescopes (m : MatchedDocument) (node : NodeId) (s s' : Symbols) : Prop :=
  ∃ symbol, Scoping m node s s'.cg.scopes symbol ∧ Places node symbol s s'

/-! ### Include blocks -/

/-- The include blocks of a shader are a matter of links. -/
theorem mem_includesOf_iff {shader : Option ShaderId} {i : Cg.GlobalId} : i ∈ s.includesOf shader ↔
    ∃ k list, shader = some k ∧ s.links.includes[k.index]? = some list ∧ i ∈ list := by
  unfold includesOf shaderAt? links
  rw [Cg.Table.mem_getD_nil_iff]
  simp only [Array.getElem?_map, Option.map_eq_some_iff, Option.bind_eq_some_iff]
  constructor
  · rintro ⟨_, ⟨x, ⟨k, rfl, hx⟩, rfl⟩, hi⟩
    exact ⟨k, _, rfl, ⟨x, hx, rfl⟩, hi⟩
  · rintro ⟨k, _, rfl, ⟨x, hx, rfl⟩, hi⟩
    exact ⟨_, ⟨x, ⟨k, rfl, hx⟩, rfl⟩, hi⟩

theorem Links.Agree.shader_of_mem_includesOf (ha : s.links.Agree) {shader : Option ShaderId} {i : Cg.GlobalId}
    (hi : i ∈ s.includesOf shader) : s.cg.scopes.shader i = shader := by
  obtain ⟨k, list, rfl, hlist, hmem⟩ := mem_includesOf_iff.mp hi
  have hlink : (s.cg.globals.map Cg.Global.shader)[i.index]? = some (some k) :=
    (ha.includes hlist).2 i hmem
  rw [Array.getElem?_map] at hlink
  obtain ⟨x, hx, hshader⟩ := Option.map_eq_some_iff.mp hlink
  simp only [Cg.Table.scopes, Cg.Table.globalAt?, hx, Option.bind_some, hshader]

/-- An include block is listed by the shader around it. -/
theorem InRange.includes_collectInclude (h : s.InRange) (ha : s.links.Agree) (m : MatchedDocument)
    (v : Vocabulary) (node : NodeId) : (s.collectInclude m v node).links.includes =
      match s.shaderAround? m.tree node with
      | some k => s.links.includes.modify k.index (· ++ [⟨s.cg.globals.size⟩])
      | none => s.links.includes := by
  have hlinks := h.links_createProgram m v node
  unfold Symbols.collectInclude
  dsimp only
  rw [(ha.createProgram h m v node).shaderAround, links_setState]
  rcases s.shaderAround? m.tree node with _ | k
  · dsimp only
    rw [hlinks]
  · dsimp only
    rw [links_modifyShader (a := id) (b := (· ++ [(s.createProgram m v node).1]))
      (f := fun x => { x with includes := x.includes ++ [(s.createProgram m v node).1] }) (fun _ => rfl)
      (fun _ => rfl), hlinks]
    rfl

/-- Shaders keep their include blocks. -/
theorem Change.includesOf_subset {c : Collector} (hc : Change m v node c s s') (h : s.InRange)
    (ha : s.links.Agree) (shader : Option ShaderId) : s.includesOf shader ⊆ s'.includesOf shader := by
  have hsame (heq : s'.links.includes = s.links.includes) : s.includesOf shader ⊆ s'.includesOf shader := by
    intro i hi
    rw [mem_includesOf_iff, heq]
    exact mem_includesOf_iff.mp hi
  cases hc with
  | shader name =>
    intro i hi
    obtain ⟨k, list, rfl, hlist, hmem⟩ := mem_includesOf_iff.mp hi
    refine mem_includesOf_iff.mpr ⟨k, list, rfl, ?_, hmem⟩
    rw [links_setState, links_addShader, Array.getElem?_push, if_neg, hlist]
    exact Nat.ne_of_lt (Array.getElem?_eq_some_iff.mp hlist).1
  | subShader hk => exact hsame (by rw [links_setState, links_addSubShader])
  | pass hk => exact hsame (by rw [links_setState, links_addPass])
  | editShader k _ hf => exact hsame (congrArg Links.includes (links_editShader hf k))
  | editSubShader k _ hf => exact hsame (congrArg Links.includes (links_editSubShader hf k))
  | editPass k _ hf => exact hsame (congrArg Links.includes (links_editPass hf k))
  | program => exact hsame (by rw [collectProgram, links_setState, h.links_createProgram m v node])
  | includeBlock =>
    have hincludes := h.includes_collectInclude ha m v node
    rcases hk : s.shaderAround? m.tree node with _ | k
    · rw [hk] at hincludes
      exact hsame hincludes
    · rw [hk] at hincludes
      intro i hi
      obtain ⟨j, list, rfl, hlist, hmem⟩ := mem_includesOf_iff.mp hi
      rw [mem_includesOf_iff, hincludes]
      by_cases hj : k.index = j.index
      · exact ⟨j, list ++ [⟨s.cg.globals.size⟩], rfl,
          by rw [Array.getElem?_modify, if_pos hj, hlist, Option.map_some], List.mem_append_left _ hmem⟩
      · exact ⟨j, list, rfl, by rw [Array.getElem?_modify, if_neg hj, hlist], hmem⟩
  | declare _ _ => exact hsame rfl
  | declareAt _ _ _ => exact hsame rfl

/-! ### Declarations -/

theorem scopes_declareVariable (m : MatchedDocument) (node : NodeId) (cg : Cg.Table) (type : Cg.TypeId)
    (name : String) : (declareVariable m node cg type name).2.scopes = cg.scopes ∧
      (declareVariable m node cg type name).1 = ⟨cg.vars.size⟩ := by
  unfold declareVariable
  dsimp only
  split
  · rw [Cg.Table.scopes_setArraySize, Cg.Table.scopes_createVariable]
    exact ⟨rfl, rfl⟩
  · rw [Cg.Table.scopes_createVariable]
    exact ⟨rfl, rfl⟩

/-- A block belongs to a function that has no body yet. -/
theorem body_of_functionOfBlock? {f : Cg.FunctionId} (hf : s.functionOfBlock? m node = some f) :
    s.cg.scopes.body f = none := by
  simp only [functionOfBlock?, Option.bind_eq_bind, Option.bind_eq_some_iff] at hf
  obtain ⟨n, -, pattern, -, symbol, hsymbol, hf⟩ := hf
  cases symbol with
  | function id =>
    obtain ⟨x, hx, hnone⟩ := Option.bind_eq_some_iff.mp hf
    split_ifs at hnone with hbody
    obtain rfl := Option.some.inj hnone
    simp only [Cg.Table.scopes, hx, Option.bind_some]
    exact Option.isNone_iff_eq_none.mp hbody
  | _ => cases hf

section Collecting

variable (h : s.InRange)

include h

/-- A variable that was added to a table that grew is new. -/
theorem InRange.isFreshVariable {cg : Cg.Table} (hgrows : s.cg.Grows cg) :
    s.cg.scopes.IsFreshVariable ⟨cg.vars.size⟩ :=
  h.cg.isFreshVariable (Nat.not_lt.mpr hgrows.vars)

theorem rescopes_collectFunction (hc : s.collectFunction m node = some s') : Rescopes m node s s' := by
  simp only [collectFunction, Option.bind_eq_bind, Option.bind_eq_some_iff] at hc
  obtain ⟨global, hglobal, typeName, -, name, -, hs⟩ := hc
  obtain rfl := Option.some.inj hs
  have hg := h.globalAround hglobal
  have htype := h.cg.resolveType hg typeName
  refine ⟨none, ?_, places_mark rfl rfl⟩
  have hscopes := Cg.Table.scopes_addFunction (htype.1.grows.hasGlobal hg)
    (s.cg.resolveType global typeName).1 name (m.word? node "semantics")
  rw [Cg.Table.scopes_resolveType] at hscopes
  exact hscopes ▸ .function _ hglobal

theorem rescopes_collectParameter (hc : s.collectParameter m node = some s') : Rescopes m node s s' := by
  simp only [collectParameter, Option.bind_eq_bind, Option.bind_eq_some_iff] at hc
  obtain ⟨function, hfunction, f, hf, typeName, -, name, -, hs⟩ := hc
  obtain rfl := Option.some.inj hs
  have htype := h.cg.resolveType (h.cg.function_within hf).global typeName
  have hparameter := htype.1.closed.createVariable htype.2 name (m.word? node "semantics")
  have hscopes := Cg.Table.scopes_addParameter hparameter.1.closed
    ((htype.1.trans hparameter.1).grows.hasFunction (h.functionAround hfunction)) hparameter.2
  rw [Cg.Table.scopes_createVariable, Cg.Table.scopes_resolveType] at hscopes
  refine ⟨none, ?_, places_none rfl⟩
  rcases hbody : s.cg.scopes.body function with _ | k
  · rw [hbody] at hscopes
    exact hscopes ▸ .parameter hbody (h.isFreshVariable htype.1.grows)
  · rw [hbody] at hscopes
    exact hscopes ▸ .bodyParameter hbody (h.isFreshVariable htype.1.grows)

theorem rescopes_collectDeclarator (hc : s.collectDeclarator m node = some s') : Rescopes m node s s' := by
  simp only [collectDeclarator, Option.bind_eq_bind, Option.bind_eq_some_iff] at hc
  obtain ⟨type, htype, context, hcontext, name, -, hs⟩ := hc
  obtain rfl := Option.some.inj hs
  obtain ⟨hsteps, hid⟩ := steps_declareVariable m node h.cg (h.typeAround htype) name
  obtain ⟨hsame, hnew⟩ := scopes_declareVariable m node s.cg type name
  have hscopes := Cg.Table.scopes_addVariable
    ((hsteps.evolves h.cg).grows.hasContext (h.contextAround hcontext)) hid
  rw [hsame, hnew] at hscopes
  refine ⟨none, ?_, places_none rfl⟩
  dsimp only
  rw [hnew]
  exact hscopes ▸ .variable hcontext (h.isFreshVariable (.refl s.cg))

theorem rescopes_collectForInit (hc : s.collectForInit m node = some s') : Rescopes m node s s' := by
  simp only [collectForInit, Option.bind_eq_bind, Option.bind_eq_some_iff] at hc
  obtain ⟨context, hcontext, typeName, -, name, -, c, hc, hs⟩ := hc
  obtain rfl := Option.some.inj hs
  have htype := h.cg.resolveType (h.cg.context_within hc).global typeName
  have hid := htype.1.closed.createVariable htype.2 name none
  have hscopes := Cg.Table.scopes_addVariable
    ((htype.1.trans hid.1).grows.hasContext (h.contextAround hcontext)) hid.2
  rw [Cg.Table.scopes_createVariable, Cg.Table.scopes_resolveType] at hscopes
  exact ⟨none, hscopes ▸ .variable hcontext (h.isFreshVariable htype.1.grows), places_none rfl⟩

theorem rescopes_collectBlock (hc : s.collectBlock m node = some s') : Rescopes m node s s' := by
  simp only [collectBlock, Option.bind_eq_bind, Option.bind_eq_some_iff] at hc
  obtain ⟨upper, hupper, hs⟩ := hc
  obtain rfl := Option.some.inj hs
  have hu := h.contextAround hupper
  obtain ⟨u, hu'⟩ := hu.exists_context
  have hblock := h.cg.createContext hu
  have hscopes := Cg.Table.scopes_createContext hu'
  have hnew : (s.cg.createContext upper).1 = ⟨s.cg.contexts.size⟩ := by
    unfold Cg.Table.createContext
    rw [hu']
  have hprogram : s.cg.scopes.program upper = some u.global := by
    simp only [Cg.Table.scopes, hu', Option.map_some]
  have hfresh := h.cg.isFreshContext (k := ⟨s.cg.contexts.size⟩) (Nat.lt_irrefl _)
  refine ⟨some (.context ⟨s.cg.contexts.size⟩), ?_, places_some (by rw [← hnew]; rfl)⟩
  split
  · next f hf =>
    have hbody := Cg.Table.scopes_setBody hblock.1.closed
      (hblock.1.grows.hasFunction (h.functionOfBlock hf)) hblock.2
    rw [hscopes, hnew] at hbody
    dsimp only [setState]
    rw [hnew, hbody]
    exact .body hupper hprogram hfresh (body_of_functionOfBlock? hf)
  · dsimp only [setState]
    rw [hscopes]
    exact .block hupper hprogram hfresh

/-! ### Programs -/

theorem InRange.hasGlobal_of_mem_includesOf {shader : Option ShaderId} {i : Cg.GlobalId}
    (hi : i ∈ s.includesOf shader) : s.cg.HasGlobal i := by
  obtain ⟨k, list, -, hlist, hmem⟩ := mem_includesOf_iff.mp hi
  exact Nat.lt_of_lt_of_eq (h.links_inRange.includes list (Array.mem_of_getElem? hlist) i hmem)
    (Cg.Table.size_links s.cg)

theorem InRange.ne_of_mem_includesOf {shader : Option ShaderId} {i : Cg.GlobalId}
    (hi : i ∈ s.includesOf shader) : i ≠ ⟨s.cg.globals.size⟩ := by
  rintro rfl
  exact Nat.lt_irrefl _ (h.hasGlobal_of_mem_includesOf hi)

/-- A new program imports the include blocks of the shader around it. -/
theorem InRange.scopes_createProgram (m : MatchedDocument) (v : Vocabulary) (node : NodeId) :
    (s.createProgram m v node).2.cg.scopes =
      (s.cg.scopes.addProgram ⟨s.cg.globals.size⟩ ⟨s.cg.contexts.size⟩ (s.shaderAround? m.tree node)).importAll
        ⟨s.cg.globals.size⟩ ⟨s.cg.contexts.size⟩ (s.includesOf (s.shaderAround? m.tree node)) := by
  have hnew := s.cg.scopes_createGlobal v (s.shaderAround? m.tree node)
  have himport := @Cg.Table.scopes_foldl_importGlobal
    ((s.cg.createGlobal v).2.setShader ⟨s.cg.globals.size⟩ (s.shaderAround? m.tree node))
    ⟨s.cg.globals.size⟩ ⟨s.cg.contexts.size⟩ (s.includesOf (s.shaderAround? m.tree node))
  rw [hnew] at himport
  rw [← himport (Function.update_self _ _ _) (Function.update_self _ _ _)]
  · exact congrArg Cg.Table.scopes (cg_addProgram _ _ _ _)
  · intro i hi
    have hlt := h.hasGlobal_of_mem_includesOf hi
    have hne := h.ne_of_mem_includesOf hi
    have hg : s.cg.globalAt? i = some s.cg.globals[i.index] := Array.getElem?_eq_getElem hlt
    refine ⟨hne, s.cg.globals[i.index].context, ?_, fun heq => ?_⟩
    · exact (Function.update_of_ne hne _ _).trans (congrArg (Option.map Cg.Global.context) hg)
    · have hcontext := (h.cg.global_within hg).context
      rw [heq] at hcontext
      exact Nat.lt_irrefl _ hcontext

theorem rescopes_program (hcg : s'.cg = (s.createProgram m v node).2.cg)
    (hstates : s'.states = (node, .global (s.createProgram m v node).1) :: s.states) :
    Rescopes m node s s' := by
  refine ⟨some (.global ⟨s.cg.globals.size⟩), ?_, places_some hstates⟩
  rw [hcg, h.scopes_createProgram m v node]
  exact .program (h.cg.isFreshProgram (Nat.lt_irrefl _)) (h.cg.isFreshContext (Nat.lt_irrefl _))

/-- What is no declaration has no effect on scopes, unless it is a program. -/
theorem rescopes_of_change {c : Collector} (hchange : Change m v node c s s') (hc : isDeclaration c = false) :
    Rescopes m node s s' := by
  have hstates : (s.createProgram m v node).2.states = s.states := states_addProgram _ _ _ _
  cases hchange with
  | shader name => exact ⟨none, .same, places_mark rfl rfl⟩
  | subShader hk => exact ⟨none, .same, places_mark rfl rfl⟩
  | pass hk => exact ⟨none, .same, places_mark rfl rfl⟩
  | editShader k _ _ => exact ⟨none, .same, places_none rfl⟩
  | editSubShader k _ _ => exact ⟨none, .same, places_none rfl⟩
  | editPass k _ _ => exact ⟨none, .same, places_none rfl⟩
  | program => exact rescopes_program h rfl (congrArg (List.cons _) hstates)
  | includeBlock =>
    unfold collectInclude
    dsimp only
    split <;> exact rescopes_program h rfl (congrArg (List.cons _) hstates)
  | declare hdeclaration _ => exact absurd hdeclaration (by simp [hc])
  | declareAt hdeclaration _ _ => exact absurd hdeclaration (by simp [hc])

/-- **A collector has one of the effects on scopes**, if it has any. -/
theorem rescopes_of_collect? {c : Collector} (hc : s.collect? m v node c = some s') : Rescopes m node s s' := by
  cases c with
  | function => exact rescopes_collectFunction h hc
  | parameter => exact rescopes_collectParameter h hc
  | block => exact rescopes_collectBlock h hc
  | declarator => exact rescopes_collectDeclarator h hc
  | forInit => exact rescopes_collectForInit h hc
  | struct =>
    simp only [collect?, collectStruct, Option.bind_eq_bind, Option.bind_eq_some_iff] at hc
    obtain ⟨global, -, name, -, hs⟩ := hc
    obtain rfl := Option.some.inj hs
    refine ⟨none, ?_, places_mark rfl rfl⟩
    dsimp only [setState]
    rw [Cg.Table.scopes_addType]
    exact .same
  | structMember =>
    simp only [collect?, collectStructMember, Option.bind_eq_bind, Option.bind_eq_some_iff] at hc
    obtain ⟨owner, -, info, -, typeName, -, name, -, hs⟩ := hc
    obtain rfl := Option.some.inj hs
    refine ⟨none, ?_, places_none rfl⟩
    dsimp only
    rw [Cg.Table.scopes_addMember, (scopes_declareVariable m node _ _ name).1, Cg.Table.scopes_resolveType]
    exact .same
  | «variable» =>
    simp only [collect?, collectVariable, Option.bind_eq_bind, Option.bind_eq_some_iff] at hc
    obtain ⟨global, -, typeName, -, hs⟩ := hc
    obtain rfl := Option.some.inj hs
    refine ⟨none, ?_, places_mark rfl rfl⟩
    dsimp only [setState]
    rw [Cg.Table.scopes_resolveType]
    exact .same
  | _ => exact rescopes_of_change h (change_of_collect? h hc) rfl

end Collecting

/-! ### Steps of a run -/

/-- Each step of a run has one of the effects on scopes, -/
theorem rescopes_after (m : MatchedDocument) (v : Vocabulary) (done : List (NodeId × Collector))
    (entry : NodeId × Collector) : Rescopes m entry.1 (after m v done) (after m v (done ++ [entry])) := by
  rcases after_concat_cases m v done entry with heq | hc
  · rw [heq]
    exact ⟨none, .same, places_none rfl⟩
  · exact rescopes_of_collect? (inRange_after m v done) hc

/-- and keeps the include blocks. -/
theorem includesOf_after_subset (m : MatchedDocument) (v : Vocabulary) (done : List (NodeId × Collector))
    (entry : NodeId × Collector) (shader : Option ShaderId) :
    (after m v done).includesOf shader ⊆ (after m v (done ++ [entry])).includesOf shader := by
  rcases after_concat_cases m v done entry with heq | hc
  · rw [heq]
    exact List.Subset.refl _
  · have hr := inRange_after m v done
    exact (change_of_collect? hr hc).includesOf_subset hr (agree_after m v done) shader

end Symbols

end ShaderAssist

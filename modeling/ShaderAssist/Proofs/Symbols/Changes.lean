import Mathlib.Data.List.Induction
import ShaderAssist.Proofs.Cg.Closed
import ShaderAssist.Symbols.Collect

/-!
# What collecting changes

The numbers in the symbols of a document are in range if each is the number of something in them
(`Symbols.InRange`). Then what is found around a node is in range as well, and a collector makes one of a few
changes (`Symbols.Change`, `change_of_collect?`), all of which leave the numbers in range (`Change.inRange`).
-/

namespace ShaderAssist

namespace Symbols

/-! ### Numbers in range -/

/-- The number of a shader of the document. -/
def HasShader (s : Symbols) (id : ShaderId) : Prop :=
  id.index < s.shaders.size

/-- The number of a sub shader of the document. -/
def HasSubShader (s : Symbols) (id : SubShaderId) : Prop :=
  id.index < s.subShaders.size

/-- The number of a pass of the document. -/
def HasPass (s : Symbols) (id : PassId) : Prop :=
  id.index < s.passes.size

/-- What has a number among the one symbols has it among the other ones. -/
structure Grows (s s' : Symbols) : Prop where
  shaders : s.shaders.size ≤ s'.shaders.size
  subShaders : s.subShaders.size ≤ s'.subShaders.size
  passes : s.passes.size ≤ s'.passes.size
  cg : s.cg.Grows s'.cg

theorem Grows.hasShader {s s' : Symbols} (h : s.Grows s') {id : ShaderId} (hid : s.HasShader id) :
    s'.HasShader id :=
  Nat.lt_of_lt_of_le hid h.shaders

theorem Grows.hasSubShader {s s' : Symbols} (h : s.Grows s') {id : SubShaderId} (hid : s.HasSubShader id) :
    s'.HasSubShader id :=
  Nat.lt_of_lt_of_le hid h.subShaders

theorem Grows.hasPass {s s' : Symbols} (h : s.Grows s') {id : PassId} (hid : s.HasPass id) :
    s'.HasPass id :=
  Nat.lt_of_lt_of_le hid h.passes

end Symbols

/-- The number in a symbol is in range. -/
def Symbol.Within (s : Symbols) : Symbol → Prop
  | .shader id => s.HasShader id
  | .subShader id => s.HasSubShader id
  | .pass id => s.HasPass id
  | .global id => s.cg.HasGlobal id
  | .context id => s.cg.HasContext id
  | .function id => s.cg.HasFunction id
  | .type id => s.cg.HasType id

/-- The number of a sub shader or pass is in range. -/
def RenderBlock.Within (s : Symbols) : RenderBlock → Prop
  | .subShader id => s.HasSubShader id
  | .pass id => s.HasPass id

/-- The numbers in a shader are in range. -/
structure Shader.Within (s : Symbols) (x : Shader) : Prop where
  properties : ∀ p ∈ x.properties, s.HasShader p.shader
  subShaders : ∀ id ∈ x.subShaders, s.HasSubShader id
  programs : ∀ id ∈ x.programs, s.cg.HasGlobal id
  includes : ∀ id ∈ x.includes, s.cg.HasGlobal id

/-- The numbers in a sub shader are in range. -/
structure SubShader.Within (s : Symbols) (x : SubShader) : Prop where
  shader : s.HasShader x.shader
  passes : ∀ id ∈ x.passes, s.HasPass id
  programs : ∀ id ∈ x.programs, s.cg.HasGlobal id

/-- The numbers in a pass are in range. -/
structure Pass.Within (s : Symbols) (x : Pass) : Prop where
  subShader : s.HasSubShader x.subShader
  programs : ∀ id ∈ x.programs, s.cg.HasGlobal id

section Mono

variable {s s' : Symbols} (h : s.Grows s')

include h

theorem Symbol.Within.mono {symbol : Symbol} (hw : symbol.Within s) : symbol.Within s' := by
  cases symbol with
  | shader id => exact h.hasShader hw
  | subShader id => exact h.hasSubShader hw
  | pass id => exact h.hasPass hw
  | global id => exact h.cg.hasGlobal hw
  | context id => exact h.cg.hasContext hw
  | function id => exact h.cg.hasFunction hw
  | type id => exact h.cg.hasType hw

theorem Shader.Within.mono {x : Shader} (hw : x.Within s) : x.Within s' :=
  ⟨fun p hp => h.hasShader (hw.properties p hp), fun id hid => h.hasSubShader (hw.subShaders id hid),
    fun id hid => h.cg.hasGlobal (hw.programs id hid), fun id hid => h.cg.hasGlobal (hw.includes id hid)⟩

theorem SubShader.Within.mono {x : SubShader} (hw : x.Within s) : x.Within s' :=
  ⟨h.hasShader hw.shader, fun id hid => h.hasPass (hw.passes id hid),
    fun id hid => h.cg.hasGlobal (hw.programs id hid)⟩

theorem Pass.Within.mono {x : Pass} (hw : x.Within s) : x.Within s' :=
  ⟨h.hasSubShader hw.subShader, fun id hid => h.cg.hasGlobal (hw.programs id hid)⟩

end Mono

namespace Symbols

/-- Every number in the symbols is the number of something in them. -/
structure InRange (s : Symbols) : Prop where
  shaders : ∀ x ∈ s.shaders, x.Within s
  subShaders : ∀ x ∈ s.subShaders, x.Within s
  passes : ∀ x ∈ s.passes, x.Within s
  states : ∀ e ∈ s.states, e.2.Within s
  /-- Programs are linked to shaders of the document, -/
  links : ∀ id, some id ∈ s.cg.links → s.HasShader id
  /-- and their own numbers are those of the table. -/
  cg : s.cg.Closed

variable {s s' : Symbols} {t : MatchTree} {node : NodeId}

theorem inRange_empty : ({} : Symbols).InRange :=
  ⟨by simp, by simp, by simp, by simp, by simp [Cg.Table.links], Cg.Table.closed_empty⟩

/-- The numbers are in range if they were in range before the symbols grew. -/
theorem Grows.inRange (h : s.Grows s') (shaders : ∀ x ∈ s'.shaders, x.Within s)
    (subShaders : ∀ x ∈ s'.subShaders, x.Within s) (passes : ∀ x ∈ s'.passes, x.Within s)
    (states : ∀ e ∈ s'.states, e.2.Within s) (links : ∀ id, some id ∈ s'.cg.links → s.HasShader id)
    (cg : s'.cg.Closed) : s'.InRange :=
  ⟨fun x hx => (shaders x hx).mono h, fun x hx => (subShaders x hx).mono h,
    fun x hx => (passes x hx).mono h, fun e he => (states e he).mono h,
    fun id hid => h.hasShader (links id hid), cg⟩

theorem InRange.modifyShader (h : s.InRange) (id : ShaderId) {f : Shader → Shader}
    (hf : ∀ x : Shader, x.Within s → (f x).Within s) : (s.modifyShader id f).InRange :=
  have hg : s.Grows (s.modifyShader id f) := ⟨by simp [Symbols.modifyShader], Nat.le_refl _, Nat.le_refl _,
    Cg.Table.Grows.refl _⟩
  hg.inRange (forall_mem_modify h.shaders hf) h.subShaders h.passes h.states h.links h.cg

theorem InRange.modifySubShader (h : s.InRange) (id : SubShaderId) {f : SubShader → SubShader}
    (hf : ∀ x : SubShader, x.Within s → (f x).Within s) : (s.modifySubShader id f).InRange :=
  have hg : s.Grows (s.modifySubShader id f) := ⟨Nat.le_refl _, by simp [Symbols.modifySubShader],
    Nat.le_refl _, Cg.Table.Grows.refl _⟩
  hg.inRange h.shaders (forall_mem_modify h.subShaders hf) h.passes h.states h.links h.cg

theorem InRange.modifyPass (h : s.InRange) (id : PassId) {f : Pass → Pass}
    (hf : ∀ x : Pass, x.Within s → (f x).Within s) : (s.modifyPass id f).InRange :=
  have hg : s.Grows (s.modifyPass id f) := ⟨Nat.le_refl _, Nat.le_refl _, by simp [Symbols.modifyPass],
    Cg.Table.Grows.refl _⟩
  hg.inRange h.shaders h.subShaders (forall_mem_modify h.passes hf) h.states h.links h.cg

theorem InRange.setState (h : s.InRange) (node : NodeId) {symbol : Symbol} (hsymbol : symbol.Within s) :
    (s.setState node symbol).InRange :=
  have hg : s.Grows (s.setState node symbol) :=
    ⟨Nat.le_refl _, Nat.le_refl _, Nat.le_refl _, Cg.Table.Grows.refl _⟩
  hg.inRange h.shaders h.subShaders h.passes (List.forall_mem_cons.mpr ⟨hsymbol, h.states⟩) h.links h.cg

theorem InRange.withCg (h : s.InRange) {cg : Cg.Table} (hgrows : s.cg.Grows cg) (hclosed : cg.Closed)
    (hlinks : ∀ id, some id ∈ cg.links → s.HasShader id) : { s with cg := cg }.InRange :=
  have hg : s.Grows { s with cg := cg } := ⟨Nat.le_refl _, Nat.le_refl _, Nat.le_refl _, hgrows⟩
  hg.inRange h.shaders h.subShaders h.passes h.states hlinks hclosed

/-! ### What is around a node -/

theorem mem_states_of_state? {symbol : Symbol} (h : s.state? node = some symbol) :
    (node, symbol) ∈ s.states := by
  obtain ⟨front, rest, hstates, -⟩ := List.lookup_eq_some_iff.mp h
  rw [hstates]
  exact List.mem_append_right _ List.mem_cons_self

/-- What is found around a node comes from the symbol of a node. -/
theorem exists_symbol_of_find {α : Type} {f : Symbol → Option α} {a : α} (h : s.find t node f = some a) :
    ∃ id symbol, s.state? id = some symbol ∧ f symbol = some a := by
  obtain ⟨id, -, hid⟩ := List.exists_of_findSome?_eq_some h
  obtain ⟨symbol, hsymbol, ha⟩ := Option.bind_eq_some_iff.mp hid
  exact ⟨id, symbol, hsymbol, ha⟩

section Around

variable (h : s.InRange)

include h

theorem InRange.within_state {symbol : Symbol} (hs : s.state? node = some symbol) : symbol.Within s :=
  h.states _ (mem_states_of_state? hs)

theorem InRange.hasShader_of_subShader {id : SubShaderId} {k : ShaderId}
    (hk : s.shaderOfSubShader? id = some k) : s.HasShader k := by
  obtain ⟨x, hx, rfl⟩ := Option.map_eq_some_iff.mp hk
  exact (h.subShaders x (Array.mem_of_getElem? hx)).shader

theorem InRange.hasSubShader_of_pass {id : PassId} {k : SubShaderId}
    (hk : s.subShaderOfPass? id = some k) : s.HasSubShader k := by
  obtain ⟨x, hx, rfl⟩ := Option.map_eq_some_iff.mp hk
  exact (h.passes x (Array.mem_of_getElem? hx)).subShader

theorem InRange.shaderAround {k : ShaderId} (hk : s.shaderAround? t node = some k) : s.HasShader k := by
  obtain ⟨id, symbol, hsymbol, hf⟩ := exists_symbol_of_find hk
  have hw := h.within_state hsymbol
  cases symbol with
  | shader id => exact Option.some.inj hf ▸ hw
  | subShader id => exact h.hasShader_of_subShader hf
  | pass id =>
    obtain ⟨i, -, hi⟩ := Option.bind_eq_some_iff.mp hf
    exact h.hasShader_of_subShader hi
  | _ => exact nomatch hf

theorem InRange.subShaderAround {k : SubShaderId} (hk : s.subShaderAround? t node = some k) :
    s.HasSubShader k := by
  obtain ⟨id, symbol, hsymbol, hf⟩ := exists_symbol_of_find hk
  have hw := h.within_state hsymbol
  cases symbol with
  | subShader id => exact Option.some.inj hf ▸ hw
  | pass id => exact h.hasSubShader_of_pass hf
  | _ => exact nomatch hf

theorem InRange.renderBlockAround {b : RenderBlock} (hb : s.renderBlockAround? t node = some b) :
    b.Within s := by
  obtain ⟨id, symbol, hsymbol, hf⟩ := exists_symbol_of_find hb
  have hw := h.within_state hsymbol
  cases symbol with
  | subShader id => exact Option.some.inj hf ▸ hw
  | pass id => exact Option.some.inj hf ▸ hw
  | _ => exact nomatch hf

theorem InRange.contextAround {k : Cg.ContextId} (hk : s.contextAround? t node = some k) :
    s.cg.HasContext k := by
  obtain ⟨id, symbol, hsymbol, hf⟩ := exists_symbol_of_find hk
  have hw := h.within_state hsymbol
  cases symbol with
  | context id => exact Option.some.inj hf ▸ hw
  | global id =>
    obtain ⟨g, hg, rfl⟩ := Option.map_eq_some_iff.mp hf
    exact (h.cg.global_within hg).context
  | _ => exact nomatch hf

theorem InRange.globalAround {k : Cg.GlobalId} (hk : s.globalAround? t node = some k) :
    s.cg.HasGlobal k := by
  obtain ⟨id, symbol, hsymbol, hf⟩ := exists_symbol_of_find hk
  have hw := h.within_state hsymbol
  cases symbol with
  | global id => exact Option.some.inj hf ▸ hw
  | context id =>
    obtain ⟨c, hc, rfl⟩ := Option.map_eq_some_iff.mp hf
    exact (h.cg.context_within hc).global
  | _ => exact nomatch hf

theorem InRange.functionAround {k : Cg.FunctionId} (hk : s.functionAround? t node = some k) :
    s.cg.HasFunction k := by
  obtain ⟨id, symbol, hsymbol, hf⟩ := exists_symbol_of_find hk
  have hw := h.within_state hsymbol
  cases symbol with
  | function id => exact Option.some.inj hf ▸ hw
  | _ => exact nomatch hf

theorem InRange.typeAround {k : Cg.TypeId} (hk : s.typeAround? t node = some k) : s.cg.HasType k := by
  obtain ⟨id, symbol, hsymbol, hf⟩ := exists_symbol_of_find hk
  have hw := h.within_state hsymbol
  cases symbol with
  | type id => exact Option.some.inj hf ▸ hw
  | _ => exact nomatch hf

end Around

/-! ### Changes -/

/-- Whether a collector records a detail of a shader, sub shader or pass. -/
def isDetail : Collector → Bool
  | .property | .fallback | .customEditor | .lod | .tag | .renderSetup => true
  | _ => false

/-- Whether a collector declares something in a program. -/
def isDeclaration : Collector → Bool
  | .struct | .structMember | .function | .parameter | .block | .variable | .declarator | .forInit => true
  | _ => false

/-- A change of a shader that leaves its sub shaders, programs and include blocks alone. -/
structure EditsShader (s : Symbols) (f : Shader → Shader) : Prop where
  subShaders : ∀ x, (f x).subShaders = x.subShaders
  programs : ∀ x, (f x).programs = x.programs
  includes : ∀ x, (f x).includes = x.includes
  properties : ∀ x, ∀ p ∈ (f x).properties, p ∈ x.properties ∨ s.HasShader p.shader

/-- A change of a sub shader that leaves its shader, passes and programs alone. -/
structure EditsSubShader (f : SubShader → SubShader) : Prop where
  shader : ∀ x, (f x).shader = x.shader
  passes : ∀ x, (f x).passes = x.passes
  programs : ∀ x, (f x).programs = x.programs

/-- A change of a pass that leaves its sub shader and programs alone. -/
structure EditsPass (f : Pass → Pass) : Prop where
  subShader : ∀ x, (f x).subShader = x.subShader
  programs : ∀ x, (f x).programs = x.programs

/-- A change that a collector makes at a node. -/
inductive Change (m : MatchedDocument) (v : Vocabulary) (node : NodeId) :
    Collector → Symbols → Symbols → Prop where
  | shader {s : Symbols} (name : String) :
    Change m v node .shader s ((s.addShader name).2.setState node (.shader (s.addShader name).1))
  | subShader {s : Symbols} {k : ShaderId} : s.HasShader k → Change m v node .subShader s
    ((s.addSubShader k).2.setState node (.subShader (s.addSubShader k).1))
  | pass {s : Symbols} {k : SubShaderId} : s.HasSubShader k → Change m v node .pass s
    ((s.addPass k).2.setState node (.pass (s.addPass k).1))
  | editShader {c : Collector} {s : Symbols} {f : Shader → Shader} (k : ShaderId) : isDetail c →
    s.EditsShader f → Change m v node c s (s.modifyShader k f)
  | editSubShader {c : Collector} {s : Symbols} {f : SubShader → SubShader} (k : SubShaderId) :
    isDetail c → EditsSubShader f → Change m v node c s (s.modifySubShader k f)
  | editPass {c : Collector} {s : Symbols} {f : Pass → Pass} (k : PassId) : isDetail c → EditsPass f →
    Change m v node c s (s.modifyPass k f)
  | program {s : Symbols} : Change m v node .program s (s.collectProgram m v node)
  | includeBlock {s : Symbols} : Change m v node .includeBlock s (s.collectInclude m v node)
  | declare {c : Collector} {s : Symbols} {cg : Cg.Table} : isDeclaration c → s.cg.Steps cg →
    Change m v node c s { s with cg := cg }
  | declareAt {c : Collector} {s : Symbols} {cg : Cg.Table} {symbol : Symbol} : isDeclaration c →
    s.cg.Steps cg → symbol.Within { s with cg := cg } →
    Change m v node c s ({ s with cg := cg }.setState node symbol)

variable {m : MatchedDocument} {v : Vocabulary}

/-- A new variable at a node takes operations of the table. -/
theorem steps_declareVariable (m : MatchedDocument) (node : NodeId) {cg : Cg.Table} (hc : cg.Closed)
    {type : Cg.TypeId} (htype : cg.HasType type) (name : String) :
    cg.Steps (declareVariable m node cg type name).2 ∧
      (declareVariable m node cg type name).2.HasVariable (declareVariable m node cg type name).1 := by
  have hnew := hc.createVariable htype name (m.word? node "semantics")
  unfold declareVariable
  dsimp only
  split
  · exact ⟨(Cg.Table.Step.createVariable _ _ htype).single.tail (.setArraySize _ _),
      (hnew.1.closed.setArraySize _ _).grows.hasVariable hnew.2⟩
  · exact ⟨(Cg.Table.Step.createVariable _ _ htype).single, hnew.2⟩

section Collecting

variable (h : s.InRange)

include h

theorem InRange.functionOfBlock {k : Cg.FunctionId} (hk : s.functionOfBlock? m node = some k) :
    s.cg.HasFunction k := by
  simp only [functionOfBlock?, Option.bind_eq_bind, Option.bind_eq_some_iff] at hk
  obtain ⟨n, -, pattern, -, symbol, hsymbol, hk⟩ := hk
  have hw := h.within_state hsymbol
  cases symbol with
  | function id =>
    obtain ⟨f, -, hf⟩ := Option.bind_eq_some_iff.mp hk
    split_ifs at hf
    exact Option.some.inj hf ▸ hw
  | _ => exact nomatch hk

theorem change_collectProperty (hc : s.collectProperty m node = some s') :
    Change m v node .property s s' := by
  simp only [collectProperty, Option.bind_eq_bind, Option.bind_eq_some_iff] at hc
  obtain ⟨k, hk, identifier, -, hs⟩ := hc
  obtain rfl := Option.some.inj hs
  refine .editShader k rfl ⟨fun _ => rfl, fun _ => rfl, fun _ => rfl, fun x p hp => ?_⟩
  rcases List.mem_append.mp hp with hp | hp
  · exact Or.inl hp
  · rw [List.mem_singleton.mp hp]
    exact Or.inr (h.shaderAround hk)

theorem change_collectStruct (hc : s.collectStruct m node = some s') : Change m v node .struct s s' := by
  simp only [collectStruct, Option.bind_eq_bind, Option.bind_eq_some_iff] at hc
  obtain ⟨global, hglobal, name, -, hs⟩ := hc
  obtain rfl := Option.some.inj hs
  have hg := h.globalAround hglobal
  exact .declareAt rfl (Cg.Table.Step.addType name hg).single (h.cg.addType hg name).2

theorem change_collectStructMember (hc : s.collectStructMember m node = some s') :
    Change m v node .structMember s s' := by
  simp only [collectStructMember, Option.bind_eq_bind, Option.bind_eq_some_iff] at hc
  obtain ⟨owner, howner, info, hinfo, typeName, -, name, -, hs⟩ := hc
  obtain rfl := Option.some.inj hs
  have hg := (h.cg.type_within hinfo).global
  have htype := h.cg.resolveType hg typeName
  obtain ⟨hsteps, hmember⟩ := steps_declareVariable m node htype.1.closed htype.2 name
  have howner := (htype.1.trans (hsteps.evolves htype.1.closed)).grows.hasType (h.typeAround howner)
  exact .declare rfl (((Cg.Table.Step.resolveType typeName hg).single.trans hsteps).tail
    (.addMember howner hmember))

theorem change_collectFunction (hc : s.collectFunction m node = some s') :
    Change m v node .function s s' := by
  simp only [collectFunction, Option.bind_eq_bind, Option.bind_eq_some_iff] at hc
  obtain ⟨global, hglobal, typeName, -, name, -, hs⟩ := hc
  obtain rfl := Option.some.inj hs
  have hg := h.globalAround hglobal
  have htype := h.cg.resolveType hg typeName
  have hg' := htype.1.grows.hasGlobal hg
  exact .declareAt rfl ((Cg.Table.Step.resolveType typeName hg).single.tail
    (.addFunction name (m.word? node "semantics") hg' htype.2))
    (htype.1.closed.addFunction hg' htype.2 name (m.word? node "semantics")).2

theorem change_collectParameter (hc : s.collectParameter m node = some s') :
    Change m v node .parameter s s' := by
  simp only [collectParameter, Option.bind_eq_bind, Option.bind_eq_some_iff] at hc
  obtain ⟨function, hfunction, f, hf, typeName, -, name, -, hs⟩ := hc
  obtain rfl := Option.some.inj hs
  have hg := (h.cg.function_within hf).global
  have htype := h.cg.resolveType hg typeName
  have hparameter := htype.1.closed.createVariable htype.2 name (m.word? node "semantics")
  have hfunction := (htype.1.trans hparameter.1).grows.hasFunction (h.functionAround hfunction)
  exact .declare rfl (((Cg.Table.Step.resolveType typeName hg).single.tail (.createVariable _ _ htype.2)).tail
    (.addParameter hfunction hparameter.2))

theorem change_collectBlock (hc : s.collectBlock m node = some s') : Change m v node .block s s' := by
  simp only [collectBlock, Option.bind_eq_bind, Option.bind_eq_some_iff] at hc
  obtain ⟨upper, hupper, hs⟩ := hc
  obtain rfl := Option.some.inj hs
  have hu := h.contextAround hupper
  have hblock := h.cg.createContext hu
  split
  · next function hfunction =>
    have hf := hblock.1.grows.hasFunction (h.functionOfBlock hfunction)
    exact .declareAt rfl ((Cg.Table.Step.createContext hu).single.tail (.setBody hf hblock.2))
      ((hblock.1.closed.setBody function hblock.2).grows.hasContext hblock.2)
  · exact .declareAt rfl (Cg.Table.Step.createContext hu).single hblock.2

theorem change_collectVariable (hc : s.collectVariable m node = some s') :
    Change m v node .variable s s' := by
  simp only [collectVariable, Option.bind_eq_bind, Option.bind_eq_some_iff] at hc
  obtain ⟨global, hglobal, typeName, -, hs⟩ := hc
  obtain rfl := Option.some.inj hs
  have hg := h.globalAround hglobal
  exact .declareAt rfl (Cg.Table.Step.resolveType typeName hg).single (h.cg.resolveType hg typeName).2

theorem change_collectDeclarator (hc : s.collectDeclarator m node = some s') :
    Change m v node .declarator s s' := by
  simp only [collectDeclarator, Option.bind_eq_bind, Option.bind_eq_some_iff] at hc
  obtain ⟨type, htype, context, hcontext, name, -, hs⟩ := hc
  obtain rfl := Option.some.inj hs
  obtain ⟨hsteps, hid⟩ := steps_declareVariable m node h.cg (h.typeAround htype) name
  have hcontext := (hsteps.evolves h.cg).grows.hasContext (h.contextAround hcontext)
  exact .declare rfl (hsteps.tail (.addVariable hcontext hid))

theorem change_collectForInit (hc : s.collectForInit m node = some s') : Change m v node .forInit s s' := by
  simp only [collectForInit, Option.bind_eq_bind, Option.bind_eq_some_iff] at hc
  obtain ⟨context, hcontext, typeName, -, name, -, c, hc, hs⟩ := hc
  obtain rfl := Option.some.inj hs
  have hg := (h.cg.context_within hc).global
  have htype := h.cg.resolveType hg typeName
  have hid := htype.1.closed.createVariable htype.2 name none
  have hcontext := (htype.1.trans hid.1).grows.hasContext (h.contextAround hcontext)
  exact .declare rfl (((Cg.Table.Step.resolveType typeName hg).single.tail (.createVariable _ _ htype.2)).tail
    (.addVariable hcontext hid.2))

/-- **A collector makes one of the changes**, if it makes any. -/
theorem change_of_collect? {c : Collector} (hc : s.collect? m v node c = some s') :
    Change m v node c s s' := by
  cases c with
  | shader => exact Option.some.inj hc ▸ .shader _
  | property => exact change_collectProperty h hc
  | fallback =>
    simp only [collect?, collectFallback, Option.bind_eq_bind, Option.bind_eq_some_iff] at hc
    obtain ⟨k, -, name, -, hs⟩ := hc
    exact Option.some.inj hs ▸ .editShader k rfl ⟨fun _ => rfl, fun _ => rfl, fun _ => rfl, fun _ _ => Or.inl⟩
  | customEditor =>
    simp only [collect?, collectCustomEditor, Option.bind_eq_bind, Option.bind_eq_some_iff] at hc
    obtain ⟨k, -, name, -, hs⟩ := hc
    exact Option.some.inj hs ▸ .editShader k rfl ⟨fun _ => rfl, fun _ => rfl, fun _ => rfl, fun _ _ => Or.inl⟩
  | subShader =>
    simp only [collect?, collectSubShader, Option.bind_eq_bind, Option.bind_eq_some_iff] at hc
    obtain ⟨k, hk, hs⟩ := hc
    exact Option.some.inj hs ▸ .subShader (h.shaderAround hk)
  | pass =>
    simp only [collect?, collectPass, Option.bind_eq_bind, Option.bind_eq_some_iff] at hc
    obtain ⟨k, hk, hs⟩ := hc
    exact Option.some.inj hs ▸ .pass (h.subShaderAround hk)
  | lod =>
    simp only [collect?, collectLod, Option.bind_eq_bind, Option.bind_eq_some_iff] at hc
    obtain ⟨k, -, value, -, hs⟩ := hc
    exact Option.some.inj hs ▸ .editSubShader k rfl ⟨fun _ => rfl, fun _ => rfl, fun _ => rfl⟩
  | tag =>
    simp only [collect?, collectTag, Option.bind_eq_bind, Option.bind_eq_some_iff] at hc
    obtain ⟨name, -, block, -, hs⟩ := hc
    obtain rfl := Option.some.inj hs
    cases block with
    | subShader id => exact .editSubShader id rfl ⟨fun _ => rfl, fun _ => rfl, fun _ => rfl⟩
    | pass id => exact .editPass id rfl ⟨fun _ => rfl, fun _ => rfl⟩
  | renderSetup =>
    simp only [collect?, collectRenderSetup, Option.bind_eq_bind, Option.bind_eq_some_iff] at hc
    obtain ⟨state, -, block, -, hs⟩ := hc
    obtain rfl := Option.some.inj hs
    cases block with
    | subShader id => exact .editSubShader id rfl ⟨fun _ => rfl, fun _ => rfl, fun _ => rfl⟩
    | pass id => exact .editPass id rfl ⟨fun _ => rfl, fun _ => rfl⟩
  | program => exact Option.some.inj hc ▸ .program
  | includeBlock => exact Option.some.inj hc ▸ .includeBlock
  | struct => exact change_collectStruct h hc
  | structMember => exact change_collectStructMember h hc
  | function => exact change_collectFunction h hc
  | parameter => exact change_collectParameter h hc
  | block => exact change_collectBlock h hc
  | «variable» => exact change_collectVariable h hc
  | declarator => exact change_collectDeclarator h hc
  | forInit => exact change_collectForInit h hc

end Collecting

/-! ### Numbers stay in range -/

theorem InRange.addShader (h : s.InRange) (name : String) : (s.addShader name).2.InRange :=
  have hg : s.Grows (s.addShader name).2 := ⟨by simp [Symbols.addShader], Nat.le_refl _, Nat.le_refl _,
    Cg.Table.Grows.refl _⟩
  hg.inRange (forall_mem_push h.shaders ⟨by simp, by simp, by simp, by simp⟩) h.subShaders h.passes
    h.states h.links h.cg

theorem InRange.pushSubShader (h : s.InRange) {x : SubShader} (hx : x.Within s) :
    { s with subShaders := s.subShaders.push x }.InRange :=
  have hg : s.Grows { s with subShaders := s.subShaders.push x } := ⟨Nat.le_refl _, by simp, Nat.le_refl _,
    Cg.Table.Grows.refl _⟩
  hg.inRange h.shaders (forall_mem_push h.subShaders hx) h.passes h.states h.links h.cg

theorem InRange.addSubShader (h : s.InRange) {k : ShaderId} (hk : s.HasShader k) :
    (s.addSubShader k).2.InRange := by
  refine (h.pushSubShader ⟨hk, by simp, by simp⟩).modifyShader k fun x hx =>
    ⟨hx.properties, ?_, hx.programs, hx.includes⟩
  simpa [or_imp, forall_and, HasSubShader] using hx.subShaders

theorem InRange.pushPass (h : s.InRange) {x : Pass} (hx : x.Within s) :
    { s with passes := s.passes.push x }.InRange :=
  have hg : s.Grows { s with passes := s.passes.push x } := ⟨Nat.le_refl _, Nat.le_refl _, by simp,
    Cg.Table.Grows.refl _⟩
  hg.inRange h.shaders h.subShaders (forall_mem_push h.passes hx) h.states h.links h.cg

theorem InRange.addPass (h : s.InRange) {k : SubShaderId} (hk : s.HasSubShader k) :
    (s.addPass k).2.InRange := by
  refine (h.pushPass ⟨hk, by simp⟩).modifySubShader k fun x hx => ⟨hx.shader, ?_, hx.programs⟩
  simpa [or_imp, forall_and, HasPass] using hx.passes

theorem InRange.addProgram (h : s.InRange) {program : Cg.GlobalId} (hp : s.cg.HasGlobal program)
    (shader : Option ShaderId) (block : Option RenderBlock) :
    (s.addProgram program shader block).InRange := by
  unfold Symbols.addProgram
  split
  · exact h.modifyPass _ fun x hx =>
      ⟨hx.subShader, by simpa [or_imp, forall_and] using ⟨hx.programs, hp⟩⟩
  · exact h.modifySubShader _ fun x hx =>
      ⟨hx.shader, hx.passes, by simpa [or_imp, forall_and] using ⟨hx.programs, hp⟩⟩
  · split
    · exact h.modifyShader _ fun x hx => ⟨hx.properties, hx.subShaders,
        by simpa [or_imp, forall_and] using ⟨hx.programs, hp⟩, hx.includes⟩
    · exact h

/-- A new program is the next one of the table, linked to the shader around its node. -/
theorem InRange.createProgram (h : s.InRange) (m : MatchedDocument) (v : Vocabulary) (node : NodeId) :
    ∃ cg, s.cg.AddsProgram (s.shaderAround? m.tree node) cg ∧
      s.createProgram m v node = (⟨s.cg.globals.size⟩,
        { s with cg := cg }.addProgram ⟨s.cg.globals.size⟩ (s.shaderAround? m.tree node)
          (s.renderBlockAround? m.tree node)) := by
  have hnew := (h.cg.createGlobal v).setShader (s.shaderAround? m.tree node)
  exact ⟨_, hnew.evolves (hnew.closed.foldl fun cg hcg source _ => hcg.closed.importGlobal _ source), rfl⟩

theorem InRange.withProgram (h : s.InRange) {cg : Cg.Table}
    (hcg : s.cg.AddsProgram (s.shaderAround? t node) cg) : { s with cg := cg }.InRange := by
  refine h.withCg hcg.grows hcg.closed fun id hid => ?_
  rw [hcg.links, Array.mem_push] at hid
  rcases hid with hid | hid
  · exact h.links id hid
  · exact h.shaderAround hid.symm

theorem cg_addProgram (s : Symbols) (program : Cg.GlobalId) (shader : Option ShaderId)
    (block : Option RenderBlock) : (s.addProgram program shader block).cg = s.cg := by
  unfold Symbols.addProgram
  split
  · rfl
  · rfl
  · split <;> rfl

theorem states_addProgram (s : Symbols) (program : Cg.GlobalId) (shader : Option ShaderId)
    (block : Option RenderBlock) : (s.addProgram program shader block).states = s.states := by
  unfold Symbols.addProgram
  split
  · rfl
  · rfl
  · split <;> rfl

theorem InRange.inRange_createProgram (h : s.InRange) (m : MatchedDocument) (v : Vocabulary)
    (node : NodeId) : (s.createProgram m v node).2.InRange ∧
      (s.createProgram m v node).2.cg.HasGlobal (s.createProgram m v node).1 := by
  obtain ⟨cg, hcg, heq⟩ := h.createProgram m v node
  rw [heq, cg_addProgram]
  exact ⟨(h.withProgram hcg).addProgram hcg.hasGlobal _ _, hcg.hasGlobal⟩

theorem InRange.collectProgram (h : s.InRange) : (s.collectProgram m v node).InRange := by
  obtain ⟨hnew, hprogram⟩ := h.inRange_createProgram m v node
  exact hnew.setState node hprogram

theorem InRange.collectInclude (h : s.InRange) : (s.collectInclude m v node).InRange := by
  obtain ⟨hnew, hprogram⟩ := h.inRange_createProgram m v node
  have hlisted (k : ShaderId) : ((s.createProgram m v node).2.modifyShader k fun x =>
      { x with includes := x.includes ++ [(s.createProgram m v node).1] }).InRange :=
    hnew.modifyShader k fun x hx => ⟨hx.properties, hx.subShaders, hx.programs,
      by simpa [or_imp, forall_and] using ⟨hx.includes, hprogram⟩⟩
  unfold Symbols.collectInclude
  dsimp only
  split
  · exact (hlisted _).setState node hprogram
  · exact hnew.setState node hprogram

theorem EditsShader.within {f : Shader → Shader} (hf : s.EditsShader f) {x : Shader} (hx : x.Within s) :
    (f x).Within s := by
  refine ⟨fun p hp => ?_, by rw [hf.subShaders]; exact hx.subShaders, by rw [hf.programs]; exact hx.programs,
    by rw [hf.includes]; exact hx.includes⟩
  rcases hf.properties x p hp with hp | hp
  · exact hx.properties p hp
  · exact hp

/-- **Changes leave the numbers in range.** -/
theorem Change.inRange {c : Collector} (hc : Change m v node c s s') (h : s.InRange) : s'.InRange := by
  cases hc with
  | shader name =>
    exact (h.addShader name).setState node (by simp [Symbol.Within, HasShader, Symbols.addShader])
  | subShader hk =>
    exact (h.addSubShader hk).setState node
      (by simp [Symbol.Within, HasSubShader, Symbols.addSubShader, Symbols.modifyShader])
  | pass hk =>
    exact (h.addPass hk).setState node
      (by simp [Symbol.Within, HasPass, Symbols.addPass, Symbols.modifySubShader])
  | editShader k _ hf => exact h.modifyShader k fun x hx => hf.within hx
  | editSubShader k _ hf =>
    refine h.modifySubShader k fun x hx => ⟨?_, ?_, ?_⟩
    · rw [hf.shader]
      exact hx.shader
    · rw [hf.passes]
      exact hx.passes
    · rw [hf.programs]
      exact hx.programs
  | editPass k _ hf =>
    refine h.modifyPass k fun x hx => ⟨?_, ?_⟩
    · rw [hf.subShader]
      exact hx.subShader
    · rw [hf.programs]
      exact hx.programs
  | program => exact h.collectProgram
  | includeBlock => exact h.collectInclude
  | declare _ hsteps =>
    have hcg := hsteps.evolves h.cg
    exact h.withCg hcg.grows hcg.closed (hcg.links ▸ h.links)
  | declareAt _ hsteps hsymbol =>
    have hcg := hsteps.evolves h.cg
    exact (h.withCg hcg.grows hcg.closed (hcg.links ▸ h.links)).setState node hsymbol

/-! ### Whole runs -/

/-- The symbols after collectors have run one after the other. -/
def after (m : MatchedDocument) (v : Vocabulary) (done : List (NodeId × Collector)) : Symbols :=
  done.foldl (collect m v) {}

theorem after_concat (done : List (NodeId × Collector)) (entry : NodeId × Collector) :
    after m v (done ++ [entry]) = (after m v done).collect m v entry := by
  rw [after, List.foldl_append]
  rfl

/-- A collector leaves the symbols alone or records something. -/
theorem after_concat_cases (m : MatchedDocument) (v : Vocabulary) (done : List (NodeId × Collector))
    (entry : NodeId × Collector) : after m v (done ++ [entry]) = after m v done ∨
      (after m v done).collect? m v entry.1 entry.2 = some (after m v (done ++ [entry])) := by
  rw [after_concat, collect]
  rcases (after m v done).collect? m v entry.1 entry.2 with _ | s'
  · exact Or.inl rfl
  · exact Or.inr rfl

/-- **What holds along every run.** `P done s` speaks of the collectors that have run, and of the symbols they
have left; a collector that lacks something leaves them alone. -/
theorem after_induction {P : List (NodeId × Collector) → Symbols → Prop} (empty : P [] {})
    (skip : ∀ {done node c s}, s.collect? m v node c = none → P done s → P (done ++ [(node, c)]) s)
    (collect : ∀ {done node c s s'}, s.InRange → s.collect? m v node c = some s' → P done s →
      P (done ++ [(node, c)]) s') (done : List (NodeId × Collector)) : P done (after m v done) := by
  suffices h : (after m v done).InRange ∧ P done (after m v done) from h.2
  induction done using List.reverseRecOn with
  | nil => exact ⟨inRange_empty, empty⟩
  | append_singleton done entry ih =>
    obtain ⟨hr, hs⟩ := ih
    rw [after_concat, Symbols.collect]
    rcases hc : (after m v done).collect? m v entry.1 entry.2 with _ | s'
    · exact ⟨hr, skip hc hs⟩
    · exact ⟨(change_of_collect? hr hc).inRange hr, collect hr hc hs⟩

/-- As `after_induction`, for the whole run over a document and the changes that collectors make. -/
theorem ofMatched_induction {P : List (NodeId × Collector) → Symbols → Prop} (empty : P [] {})
    (skip : ∀ {done node c s}, s.collect? m v node c = none → P done s → P (done ++ [(node, c)]) s)
    (change : ∀ {done node c s s'}, s.InRange → Change m v node c s s' → P done s →
      P (done ++ [(node, c)]) s') (g : CompiledGrammar) : P (plan g m.tree) (ofMatched m v g) :=
  after_induction empty skip (fun hr hc => change hr (change_of_collect? hr hc)) (plan g m.tree)

theorem inRange_after (m : MatchedDocument) (v : Vocabulary) (done : List (NodeId × Collector)) :
    (after m v done).InRange :=
  after_induction (P := fun _ s => s.InRange) inRange_empty (fun _ h => h)
    (fun hr hc _ => (change_of_collect? hr hc).inRange hr) done

/-- The numbers in the symbols of a matched document are in range. -/
theorem inRange_ofMatched (g : CompiledGrammar) : (ofMatched m v g).InRange :=
  inRange_after m v (plan g m.tree)

end Symbols

end ShaderAssist

import Mathlib.Data.List.Basic
import Mathlib.Logic.Function.Basic
import ShaderAssist.Cg.Lookup
import ShaderAssist.Proofs.Cg.TypeEdits

/-!
# Scopes of a table

What belongs where in a table (`Table.scopes`): variables to contexts, contexts to upper ones and to programs,
parameters and bodies to functions. Types do not matter for this, and neither does a variable that nothing
lists yet, so an operation on a table leaves the scopes alone or has one of a few effects on them: it declares
variables in a context (`Scopes.declare`), nests a context in another one, adds a function, a parameter or a
program.
-/

namespace ShaderAssist

/-! ### Lookups in a changed array -/

section Lookup

variable {ι α β : Type} {index : ι → Nat} {p : Option α → β} {f : α → α} {q : β → β} {xs : Array α} {x : α}
  {id : ι}

theorem lookup_push_of_eq (h : p (some x) = p none) :
    (fun j => p (xs.push x)[index j]?) = fun j => p xs[index j]? := by
  funext j
  rw [Array.getElem?_push]
  split_ifs with hj
  · rw [hj, Array.getElem?_eq_none (Nat.le_refl _), h]
  · rfl

theorem lookup_modify_of_eq (h : ∀ x, p (some (f x)) = p (some x)) (xs : Array α) (i : Nat) :
    (fun j => p (xs.modify i f)[index j]?) = fun j => p xs[index j]? := by
  funext j
  rw [Array.getElem?_modify]
  split_ifs
  · cases xs[index j]? with
    | none => rfl
    | some x => exact h x
  · rfl

variable [DecidableEq ι] (hindex : Function.Injective index)

include hindex

theorem lookup_push (hid : index id = xs.size) :
    (fun j => p (xs.push x)[index j]?) = Function.update (fun j => p xs[index j]?) id (p (some x)) := by
  funext j
  rw [Function.update_apply, Array.getElem?_push]
  by_cases hj : j = id
  · rw [if_pos hj, hj, if_pos hid]
  · rw [if_neg hj, if_neg fun heq => hj (hindex (heq.trans hid.symm))]

theorem lookup_modify (h : ∀ x, p (some (f x)) = q (p (some x))) (hid : index id < xs.size) :
    (fun j => p (xs.modify (index id) f)[index j]?) =
      Function.update (fun j => p xs[index j]?) id (q (p xs[index id]?)) := by
  funext j
  rw [Function.update_apply, Array.getElem?_modify]
  by_cases hj : j = id
  · rw [if_pos hj, hj, if_pos rfl, Array.getElem?_eq_getElem hid]
    exact h _
  · rw [if_neg hj, if_neg fun heq => hj (hindex heq.symm)]

end Lookup

namespace Cg

theorem VariableId.index_injective : Function.Injective VariableId.index :=
  fun ⟨_⟩ ⟨_⟩ => congrArg VariableId.mk

theorem FunctionId.index_injective : Function.Injective FunctionId.index :=
  fun ⟨_⟩ ⟨_⟩ => congrArg FunctionId.mk

theorem ContextId.index_injective : Function.Injective ContextId.index :=
  fun ⟨_⟩ ⟨_⟩ => congrArg ContextId.mk

theorem GlobalId.index_injective : Function.Injective GlobalId.index :=
  fun ⟨_⟩ ⟨_⟩ => congrArg GlobalId.mk

/-! ### Scopes -/

/-- What belongs where in a table. -/
@[ext]
structure Scopes where
  /-- The context of a variable, and the variables that a context lists. -/
  owner : VariableId → Option ContextId
  vars : ContextId → List VariableId
  /-- The context around a context, and the program it is in. -/
  upper : ContextId → Option ContextId
  program : ContextId → Option GlobalId
  /-- The outermost context of a program. -/
  outermost : GlobalId → Option ContextId
  shader : GlobalId → Option ShaderId
  functions : GlobalId → List FunctionId
  parameters : FunctionId → List VariableId
  body : FunctionId → Option ContextId

/-- The scopes of a table. -/
def Table.scopes (t : Table) : Scopes where
  owner id := (t.variableAt? id).bind Variable.context
  vars := t.variablesOf
  upper id := (t.contextAt? id).bind Context.upper
  program id := (t.contextAt? id).map Context.global
  outermost id := (t.globalAt? id).map Global.context
  shader id := (t.globalAt? id).bind Global.shader
  functions id := ((t.globalAt? id).map Global.functions).getD []
  parameters id := ((t.functionAt? id).map Function.parameters).getD []
  body id := (t.functionAt? id).bind Function.body

namespace Scopes

variable (σ : Scopes)

/-- Declares variables in a context. -/
def declare (context : ContextId) (ids : List VariableId) : Scopes :=
  { σ with
    owner := fun v => if v ∈ ids then some context else σ.owner v
    vars := Function.update σ.vars context (σ.vars context ++ ids) }

/-- Nests a new context in another one of a program. -/
def nest (context upper : ContextId) (program : GlobalId) : Scopes :=
  { σ with
    upper := Function.update σ.upper context (some upper)
    program := Function.update σ.program context (some program) }

/-- Adds a function to a program. -/
def addFunction (program : GlobalId) (function : FunctionId) : Scopes :=
  { σ with functions := Function.update σ.functions program (σ.functions program ++ [function]) }

/-- Gives a function one more parameter. -/
def addParameter (function : FunctionId) (parameter : VariableId) : Scopes :=
  { σ with parameters := Function.update σ.parameters function (σ.parameters function ++ [parameter]) }

/-- Gives a function a body. -/
def setBody (function : FunctionId) (context : ContextId) : Scopes :=
  { σ with body := Function.update σ.body function (some context) }

/-- Adds a new program with its outermost context. -/
def addProgram (program : GlobalId) (context : ContextId) (shader : Option ShaderId) : Scopes :=
  { σ with
    program := Function.update σ.program context (some program)
    outermost := Function.update σ.outermost program (some context)
    shader := Function.update σ.shader program shader }

/-- The variables that the outermost context of a program lists. -/
def outerVars (program : GlobalId) : List VariableId :=
  ((σ.outermost program).map σ.vars).getD []

/-- Makes the functions and outermost variables of other programs visible in a program. -/
def importAll (program : GlobalId) (context : ContextId) (sources : List GlobalId) : Scopes :=
  { σ with
    functions := Function.update σ.functions program
      ((sources.flatMap σ.functions).foldl Table.appendNew (σ.functions program))
    vars := Function.update σ.vars context
      ((sources.flatMap σ.outerVars).foldl Table.appendNew (σ.vars context)) }

variable {σ}

theorem subset_update {ι α : Type} [DecidableEq ι] {f : ι → List α} {i : ι} {list : List α} (h : f i ⊆ list)
    (j : ι) : f j ⊆ Function.update f i list j := by
  rw [Function.update_apply]
  split_ifs with hj
  · exact hj ▸ h
  · exact List.Subset.refl _

theorem subset_foldl_appendNew {α : Type} [DecidableEq α] (ys xs : List α) :
    xs ⊆ ys.foldl Table.appendNew xs ∧ ys ⊆ ys.foldl Table.appendNew xs := by
  induction ys generalizing xs with
  | nil => exact ⟨List.Subset.refl _, List.nil_subset _⟩
  | cons y ys ih =>
    have hy : xs ⊆ Table.appendNew xs y ∧ y ∈ Table.appendNew xs y := by
      unfold Table.appendNew
      split_ifs with hmem
      · exact ⟨List.Subset.refl _, hmem⟩
      · exact ⟨List.subset_append_left _ _, List.mem_append_right _ List.mem_cons_self⟩
    obtain ⟨hxs, hys⟩ := ih (Table.appendNew xs y)
    exact ⟨List.Subset.trans hy.1 hxs, List.cons_subset.mpr ⟨hxs hy.2, hys⟩⟩

theorem declare_nil (context : ContextId) : σ.declare context [] = σ := by
  refine Scopes.ext (funext fun v => ?_) ?_ rfl rfl rfl rfl rfl rfl rfl
  · simp [declare]
  · rw [declare, List.append_nil, Function.update_eq_self]

theorem declare_declare (context : ContextId) (ids ids' : List VariableId) :
    (σ.declare context ids).declare context ids' = σ.declare context (ids ++ ids') := by
  refine Scopes.ext (funext fun v => ?_) ?_ rfl rfl rfl rfl rfl rfl rfl
  · by_cases hv : v ∈ ids <;> by_cases hv' : v ∈ ids' <;> simp [declare, hv, hv']
  · simp only [declare, Function.update_self, Function.update_idem, List.append_assoc]

theorem importAll_nil (program : GlobalId) (context : ContextId) : σ.importAll program context [] = σ :=
  Scopes.ext rfl (Function.update_eq_self _ _) rfl rfl rfl rfl (Function.update_eq_self _ _) rfl rfl

/-- What a program imports does not matter to another one. -/
theorem outerVars_importAll {program i : GlobalId} {context : ContextId} (h : σ.outermost i ≠ some context)
    (sources : List GlobalId) : (σ.importAll program context sources).outerVars i = σ.outerVars i := by
  unfold outerVars importAll
  rcases hk : σ.outermost i with _ | k
  · rfl
  · have hne : k ≠ context := fun heq => h (hk.trans (congrArg some heq))
    exact Function.update_of_ne hne _ _

/-- Programs are imported one after the other, unless a program would import itself. -/
theorem importAll_cons {program source : GlobalId} {context : ContextId} {sources : List GlobalId}
    (h : ∀ i ∈ sources, i ≠ program ∧ σ.outermost i ≠ some context) :
    (σ.importAll program context [source]).importAll program context sources =
      σ.importAll program context (source :: sources) := by
  have hfunctions : sources.flatMap (σ.importAll program context [source]).functions =
      sources.flatMap σ.functions :=
    List.flatMap_congr fun i hi => Function.update_of_ne (h i hi).1 _ _
  have hvars : sources.flatMap (σ.importAll program context [source]).outerVars =
      sources.flatMap σ.outerVars :=
    List.flatMap_congr fun i hi => outerVars_importAll (h i hi).2 _
  refine Scopes.ext rfl ?_ rfl rfl rfl rfl ?_ rfl rfl
  · rw [importAll, hvars]
    simp only [importAll, Function.update_self, Function.update_idem, List.flatMap_cons, List.flatMap_nil,
      List.append_nil, List.foldl_append]
  · rw [importAll, hfunctions]
    simp only [importAll, Function.update_self, Function.update_idem, List.flatMap_cons, List.flatMap_nil,
      List.append_nil, List.foldl_append]

/-- A context is another one or somewhere in it. -/
def Inside (σ : Scopes) : ContextId → ContextId → Prop :=
  Relation.ReflTransGen fun d u => σ.upper d = some u

/-! ### What is new -/

/-- A variable that is mentioned nowhere. -/
structure IsFreshVariable (σ : Scopes) (v : VariableId) : Prop where
  owner : σ.owner v = none
  vars : ∀ k, v ∉ σ.vars k
  parameters : ∀ f, v ∉ σ.parameters f

/-- A context that is mentioned nowhere. -/
structure IsFreshContext (σ : Scopes) (k : ContextId) : Prop where
  vars : σ.vars k = []
  upper : σ.upper k = none
  program : σ.program k = none
  upper_ne : ∀ j, σ.upper j ≠ some k
  outermost_ne : ∀ x, σ.outermost x ≠ some k
  body_ne : ∀ f, σ.body f ≠ some k

/-- A program that is mentioned nowhere. -/
structure IsFreshProgram (σ : Scopes) (x : GlobalId) : Prop where
  outermost : σ.outermost x = none
  shader : σ.shader x = none
  functions : σ.functions x = []
  program_ne : ∀ k, σ.program k ≠ some x

theorem IsFreshContext.ne_of_program {k c : ContextId} {x : GlobalId} (hk : σ.IsFreshContext k)
    (hc : σ.program c = some x) : c ≠ k := by
  rintro rfl
  exact Option.some_ne_none _ (hc.symm.trans hk.program)

theorem IsFreshProgram.ne_of_outermost {x y : GlobalId} {k : ContextId} (hx : σ.IsFreshProgram x)
    (hy : σ.outermost y = some k) : y ≠ x := by
  rintro rfl
  exact Option.some_ne_none _ (hy.symm.trans hx.outermost)

end Scopes

namespace Table

variable {t : Table}

theorem Closed.isFreshVariable (h : t.Closed) {v : VariableId} (hv : ¬ t.HasVariable v) :
    t.scopes.IsFreshVariable v := by
  refine ⟨?_, fun k hk => ?_, fun f hf => ?_⟩
  · simp only [scopes, variableAt?, Array.getElem?_eq_none (Nat.le_of_not_lt hv), Option.bind_none]
  · obtain ⟨_, hids, hmem⟩ := mem_getD_nil_iff.mp hk
    obtain ⟨c, hc, rfl⟩ := Option.map_eq_some_iff.mp hids
    exact hv ((h.context_within hc).vars v hmem)
  · obtain ⟨_, hids, hmem⟩ := mem_getD_nil_iff.mp hf
    obtain ⟨x, hx, rfl⟩ := Option.map_eq_some_iff.mp hids
    exact hv ((h.function_within hx).parameters v hmem)

theorem Closed.isFreshContext (h : t.Closed) {k : ContextId} (hk : ¬ t.HasContext k) :
    t.scopes.IsFreshContext k := by
  have hnone : t.contextAt? k = none := Array.getElem?_eq_none (Nat.le_of_not_lt hk)
  refine ⟨?_, ?_, ?_, fun j hj => ?_, fun x hx => ?_, fun f hf => ?_⟩
  · simp only [scopes, variablesOf, hnone, Option.map_none, Option.getD_none]
  · simp only [scopes, hnone, Option.bind_none]
  · simp only [scopes, hnone, Option.map_none]
  · obtain ⟨c, hc, hupper⟩ := Option.bind_eq_some_iff.mp hj
    exact hk ((h.context_within hc).upper k hupper)
  · obtain ⟨g, hg, rfl⟩ := Option.map_eq_some_iff.mp hx
    exact hk (h.global_within hg).context
  · obtain ⟨x, hx, hbody⟩ := Option.bind_eq_some_iff.mp hf
    exact hk ((h.function_within hx).body k hbody)

theorem Closed.isFreshProgram (h : t.Closed) {x : GlobalId} (hx : ¬ t.HasGlobal x) :
    t.scopes.IsFreshProgram x := by
  have hnone : t.globalAt? x = none := Array.getElem?_eq_none (Nat.le_of_not_lt hx)
  refine ⟨?_, ?_, ?_, fun k hk => ?_⟩
  · simp only [scopes, hnone, Option.map_none]
  · simp only [scopes, hnone, Option.bind_none]
  · simp only [scopes, hnone, Option.map_none, Option.getD_none]
  · obtain ⟨c, hc, rfl⟩ := Option.map_eq_some_iff.mp hk
    exact hx (h.context_within hc).global

/-! ### Parts changed -/

theorem scopes_modifyVariable {f : Variable → Variable}
    {q : Option ContextId → Option ContextId} (hcontext : ∀ v, (f v).context = q v.context) {id : VariableId}
    (hid : t.HasVariable id) : (t.modifyVariable id f).scopes =
      { t.scopes with owner := Function.update t.scopes.owner id (q (t.scopes.owner id)) } :=
  Scopes.ext (lookup_modify (p := fun v => v.bind Variable.context) VariableId.index_injective hcontext hid)
    rfl rfl rfl rfl rfl rfl rfl rfl

theorem scopes_modifyContext {f : Context → Context} {q : List VariableId → List VariableId}
    (hupper : ∀ c, (f c).upper = c.upper) (hglobal : ∀ c, (f c).global = c.global)
    (hvars : ∀ c, (f c).vars = q c.vars) {id : ContextId} (hid : t.HasContext id) :
    (t.modifyContext id f).scopes =
      { t.scopes with vars := Function.update t.scopes.vars id (q (t.scopes.vars id)) } :=
  Scopes.ext rfl
    (lookup_modify (p := fun c => (c.map Context.vars).getD []) ContextId.index_injective hvars hid)
    (lookup_modify_of_eq (p := fun c => c.bind Context.upper) hupper _ _)
    (lookup_modify_of_eq (p := fun c => c.map Context.global) (fun c => congrArg some (hglobal c)) _ _)
    rfl rfl rfl rfl rfl

theorem scopes_modifyFunction {f : Function → Function} {p : List VariableId → List VariableId}
    {q : Option ContextId → Option ContextId} (hparameters : ∀ x, (f x).parameters = p x.parameters)
    (hbody : ∀ x, (f x).body = q x.body) {id : FunctionId} (hid : t.HasFunction id) :
    (t.modifyFunction id f).scopes =
      { t.scopes with
        parameters := Function.update t.scopes.parameters id (p (t.scopes.parameters id))
        body := Function.update t.scopes.body id (q (t.scopes.body id)) } :=
  Scopes.ext rfl rfl rfl rfl rfl rfl rfl
    (lookup_modify (p := fun x => (x.map Function.parameters).getD []) FunctionId.index_injective
      hparameters hid)
    (lookup_modify (p := fun x => x.bind Function.body) FunctionId.index_injective hbody hid)

theorem scopes_modifyGlobal {f : Global → Global} {q : List FunctionId → List FunctionId}
    (hcontext : ∀ g, (f g).context = g.context) (hshader : ∀ g, (f g).shader = g.shader)
    (hfunctions : ∀ g, (f g).functions = q g.functions) {id : GlobalId} (hid : t.HasGlobal id) :
    (t.modifyGlobal id f).scopes =
      { t.scopes with functions := Function.update t.scopes.functions id (q (t.scopes.functions id)) } :=
  Scopes.ext rfl rfl rfl rfl
    (lookup_modify_of_eq (p := fun g => g.map Global.context) (fun g => congrArg some (hcontext g)) _ _)
    (lookup_modify_of_eq (p := fun g => g.bind Global.shader) hshader _ _)
    (lookup_modify (p := fun g => (g.map Global.functions).getD []) GlobalId.index_injective hfunctions hid)
    rfl rfl

theorem scopes_setShader {id : GlobalId} (hid : t.HasGlobal id) (shader : Option ShaderId) :
    (t.setShader id shader).scopes =
      { t.scopes with shader := Function.update t.scopes.shader id shader } :=
  Scopes.ext rfl rfl rfl rfl
    (lookup_modify_of_eq (p := fun g => g.map Global.context) (f := fun g => { g with shader := shader })
      (fun _ => rfl) _ _)
    (lookup_modify (p := fun g => g.bind Global.shader) (f := fun g => { g with shader := shader })
      (q := fun _ => shader) GlobalId.index_injective (fun _ => rfl) hid)
    (lookup_modify_of_eq (p := fun g => (g.map Global.functions).getD [])
      (f := fun g => { g with shader := shader }) (fun _ => rfl) _ _) rfl rfl

/-! ### Operations that leave the scopes alone -/

@[simp]
theorem scopes_createVariable (t : Table) (type : TypeId) (name : String) (semantics : Option String) :
    (t.createVariable type name semantics).2.scopes = t.scopes :=
  Scopes.ext (lookup_push_of_eq (p := fun v => v.bind Variable.context) rfl) rfl rfl rfl rfl rfl rfl rfl rfl

@[simp]
theorem scopes_setArraySize (t : Table) (id : VariableId) (size : String) :
    (t.setArraySize id size).scopes = t.scopes :=
  Scopes.ext (lookup_modify_of_eq (p := fun v => v.bind Variable.context)
    (f := fun v => { v with arraySize := some size }) (fun _ => rfl) _ _) rfl rfl rfl rfl rfl rfl rfl rfl

@[simp]
theorem scopes_addMember (t : Table) (type : TypeId) (member : VariableId) :
    (t.addMember type member).scopes = t.scopes :=
  rfl

/-- The types that a program declares do not matter. -/
theorem scopes_declareType (t : Table) (global : GlobalId) (id : TypeId) :
    (t.declareType global id).scopes = t.scopes := by
  let declare (g : Global) : Global := { g with declaredTypes := g.declaredTypes ++ [id] }
  have h : ∀ {β : Type} {p : Option Global → β}, (∀ g, p (some (declare g)) = p (some g)) →
      (fun x : GlobalId => p (t.globals.modify global.index declare)[x.index]?) =
        fun x : GlobalId => p t.globals[x.index]? :=
    fun hp => lookup_modify_of_eq hp t.globals global.index
  exact Scopes.ext rfl rfl rfl rfl (h (p := fun g => g.map Global.context) fun _ => rfl)
    (h (p := fun g => g.bind Global.shader) fun _ => rfl)
    (h (p := fun g => (g.map Global.functions).getD []) fun _ => rfl) rfl rfl

/-- **Types have no part in scopes.** -/
theorem TypeEdits.scopes (h : TypeEdits t t') : t'.scopes = t.scopes := by
  refine h.eq fun hedit => ?_
  cases hedit with
  | pushType info => rfl
  | declareType x id => exact scopes_declareType _ x id
  | modifyType id hf => rfl
  | createVariable type name semantics => exact scopes_createVariable _ type name semantics

@[simp]
theorem scopes_addType (t : Table) (global : GlobalId) (name : String) :
    (t.addType global name).2.scopes = t.scopes :=
  (t.typeEdits_addType global name).scopes

@[simp]
theorem scopes_resolveType (t : Table) (global : GlobalId) (name : String) :
    (t.resolveType global name).2.scopes = t.scopes :=
  (t.typeEdits_resolveType global name).scopes

/-! ### Operations on scopes -/

theorem scopes_addVariable {context : ContextId} {id : VariableId} (hcontext : t.HasContext context)
    (hid : t.HasVariable id) : (t.addVariable context id).scopes = t.scopes.declare context [id] := by
  let t' := t.modifyContext context fun c => { c with vars := c.vars ++ [id] }
  have hlist : t'.scopes = { t.scopes with
      vars := Function.update t.scopes.vars context (t.scopes.vars context ++ [id]) } :=
    scopes_modifyContext (f := fun c => { c with vars := c.vars ++ [id] }) (q := (· ++ [id]))
      (fun _ => rfl) (fun _ => rfl) (fun _ => rfl) hcontext
  have howner := scopes_modifyVariable (t := t') (f := fun v => { v with context := some context })
    (q := fun _ => some context) (fun _ => rfl) hid
  rw [hlist] at howner
  refine howner.trans (Scopes.ext (funext fun v => ?_) rfl rfl rfl rfl rfl rfl rfl rfl)
  simp only [Function.update_apply, Scopes.declare, List.mem_singleton]

theorem scopes_createContext {upper : ContextId} {u : Context} (hu : t.contextAt? upper = some u) :
    (t.createContext upper).2.scopes = t.scopes.nest ⟨t.contexts.size⟩ upper u.global := by
  let t' : Table := { t with contexts := t.contexts.push { upper := some upper, global := u.global } }
  have hpush : t'.scopes = t.scopes.nest ⟨t.contexts.size⟩ upper u.global :=
    Scopes.ext rfl (lookup_push_of_eq (p := fun c => (c.map Context.vars).getD []) rfl)
      (lookup_push (p := fun c => c.bind Context.upper) ContextId.index_injective rfl)
      (lookup_push (p := fun c => c.map Context.global) ContextId.index_injective rfl) rfl rfl rfl rfl rfl
  have hupper : t'.HasContext upper := by
    have := (Array.getElem?_eq_some_iff.mp hu).1
    simp only [HasContext, t', Array.size_push]
    omega
  have hlist := scopes_modifyContext (t := t') (q := id)
    (f := fun c => { c with contexts := c.contexts ++ [⟨t.contexts.size⟩] }) (fun _ => rfl) (fun _ => rfl)
    (fun _ => rfl) hupper
  rw [id, Function.update_eq_self, hpush] at hlist
  unfold createContext
  rw [hu]
  exact hlist

theorem scopes_addFunction {global : GlobalId} (hglobal : t.HasGlobal global) (type : TypeId) (name : String)
    (semantics : Option String) : (t.addFunction global type name semantics).2.scopes =
      t.scopes.addFunction global ⟨t.functions.size⟩ := by
  let t' : Table := { t with functions := t.functions.push { returnType := type, name, semantics, global } }
  have hpush : t'.scopes = t.scopes :=
    Scopes.ext rfl rfl rfl rfl rfl rfl rfl
      (lookup_push_of_eq (p := fun f => (f.map Function.parameters).getD []) rfl)
      (lookup_push_of_eq (p := fun f => f.bind Function.body) rfl)
  have hlist := scopes_modifyGlobal (t := t') (q := (· ++ [⟨t.functions.size⟩]))
    (f := fun g => { g with functions := g.functions ++ [⟨t.functions.size⟩] }) (fun _ => rfl) (fun _ => rfl)
    (fun _ => rfl) hglobal
  rw [hpush] at hlist
  exact hlist

/-- A parameter is a variable of the body, if there is one. -/
theorem scopes_addParameter (hc : t.Closed) {function : FunctionId} {parameter : VariableId}
    (hfunction : t.HasFunction function) (hparameter : t.HasVariable parameter) :
    (t.addParameter function parameter).scopes = match t.scopes.body function with
      | some body => (t.scopes.addParameter function parameter).declare body [parameter]
      | none => t.scopes.addParameter function parameter := by
  let t' := t.modifyFunction function fun f => { f with parameters := f.parameters ++ [parameter] }
  have hscopes : t'.scopes = t.scopes.addParameter function parameter := by
    have hlist := scopes_modifyFunction (p := (· ++ [parameter])) (q := id)
      (f := fun f => { f with parameters := f.parameters ++ [parameter] }) (fun _ => rfl) (fun _ => rfl)
      hfunction
    rwa [id, Function.update_eq_self] at hlist
  have hbody : (t'.functionAt? function).bind Function.body = t.scopes.body function :=
    congrArg (fun σ => σ.body function) hscopes
  unfold addParameter
  dsimp only
  rw [hbody]
  rcases hb : t.scopes.body function with _ | body
  · exact hscopes
  · obtain ⟨f, hf, hfb⟩ := Option.bind_eq_some_iff.mp hb
    have hcontext : t'.HasContext body := (hc.function_within hf).body body hfb
    exact (scopes_addVariable hcontext hparameter).trans (congrArg (·.declare body [parameter]) hscopes)

theorem scopes_foldl_addVariable {context : ContextId} (ids : List VariableId) (hcontext : t.HasContext context)
    (hids : ∀ id ∈ ids, t.HasVariable id) :
    (ids.foldl (fun t id => t.addVariable context id) t).scopes = t.scopes.declare context ids := by
  induction ids generalizing t with
  | nil => exact (Scopes.declare_nil context).symm
  | cons id ids ih =>
    obtain ⟨hid, hrest⟩ := List.forall_mem_cons.mp hids
    have hcontext' : (t.addVariable context id).HasContext context := by
      simpa [HasContext, addVariable, modifyContext, modifyVariable] using hcontext
    have hrest' : ∀ x ∈ ids, (t.addVariable context id).HasVariable x := by
      simpa [HasVariable, addVariable, modifyContext, modifyVariable] using hrest
    rw [List.foldl_cons, ih hcontext' hrest', scopes_addVariable hcontext hid, Scopes.declare_declare]
    rfl

/-- The parameters of a function are variables of its body. -/
theorem scopes_setBody (hc : t.Closed) {function : FunctionId} {context : ContextId}
    (hfunction : t.HasFunction function) (hcontext : t.HasContext context) :
    (t.setBody function context).scopes =
      (t.scopes.setBody function context).declare context (t.scopes.parameters function) := by
  let t' := t.modifyFunction function fun f => { f with body := some context }
  have hscopes : t'.scopes = t.scopes.setBody function context := by
    have hset := scopes_modifyFunction (p := id) (q := fun _ => some context)
      (f := fun f => { f with body := some context }) (fun _ => rfl) (fun _ => rfl) hfunction
    rwa [id, Function.update_eq_self] at hset
  have hparameters : ((t'.functionAt? function).map Function.parameters).getD [] =
      t.scopes.parameters function := congrArg (fun σ => σ.parameters function) hscopes
  have hids : ∀ id ∈ t.scopes.parameters function, t'.HasVariable id := by
    intro id hid
    obtain ⟨_, hids, hmem⟩ := mem_getD_nil_iff.mp hid
    obtain ⟨f, hf, rfl⟩ := Option.map_eq_some_iff.mp hids
    exact (hc.function_within hf).parameters id hmem
  unfold setBody
  dsimp only
  rw [hparameters]
  exact (scopes_foldl_addVariable (t := t') _ hcontext hids).trans
    (congrArg (·.declare context (t.scopes.parameters function)) hscopes)

/-! ### New programs -/

theorem exists_of_outermost {x : GlobalId} {k : ContextId} (h : t.scopes.outermost x = some k) :
    ∃ g, t.globalAt? x = some g ∧ g.context = k :=
  Option.map_eq_some_iff.mp h

theorem hasGlobal_of_outermost {x : GlobalId} {k : ContextId} (h : t.scopes.outermost x = some k) :
    t.HasGlobal x := by
  obtain ⟨g, hg, -⟩ := exists_of_outermost h
  exact (Array.getElem?_eq_some_iff.mp hg).1

theorem HasGlobal.exists_outermost {x : GlobalId} (h : t.HasGlobal x) : ∃ k, t.scopes.outermost x = some k :=
  ⟨t.globals[x.index].context, congrArg (Option.map Global.context) (Array.getElem?_eq_getElem h)⟩

theorem hasContext_of_program {k : ContextId} {x : GlobalId} (h : t.scopes.program k = some x) :
    t.HasContext k := by
  obtain ⟨c, hc, -⟩ := Option.map_eq_some_iff.mp h
  exact (Array.getElem?_eq_some_iff.mp hc).1

/-- A new program has a new outermost context; its built-in types do not matter. -/
theorem scopes_createGlobal_unlinked (t : Table) (v : Vocabulary) : (t.createGlobal v).2.scopes =
    t.scopes.addProgram ⟨t.globals.size⟩ ⟨t.contexts.size⟩ none := by
  have hnew : (t.withProgram v).scopes = t.scopes.addProgram ⟨t.globals.size⟩ ⟨t.contexts.size⟩ none :=
    Scopes.ext rfl (lookup_push_of_eq (p := fun c => (c.map Context.vars).getD []) rfl)
      (lookup_push_of_eq (p := fun c => c.bind Context.upper) rfl)
      (lookup_push (p := fun c => c.map Context.global) ContextId.index_injective rfl)
      (lookup_push (p := fun g => g.map Global.context) GlobalId.index_injective rfl)
      (lookup_push (p := fun g => g.bind Global.shader) GlobalId.index_injective rfl)
      (lookup_push_of_eq (p := fun g => (g.map Global.functions).getD []) rfl) rfl rfl
  exact (t.typeEdits_createGlobal v).scopes.trans hnew

theorem scopes_createGlobal (t : Table) (v : Vocabulary) (shader : Option ShaderId) :
    ((t.createGlobal v).2.setShader ⟨t.globals.size⟩ shader).scopes =
      t.scopes.addProgram ⟨t.globals.size⟩ ⟨t.contexts.size⟩ shader := by
  have hscopes := t.scopes_createGlobal_unlinked v
  have hglobal : (t.createGlobal v).2.HasGlobal ⟨t.globals.size⟩ :=
    hasGlobal_of_outermost (k := ⟨t.contexts.size⟩) (by rw [hscopes]; exact Function.update_self _ _ _)
  rw [scopes_setShader hglobal, hscopes]
  refine Scopes.ext rfl rfl rfl rfl rfl ?_ rfl rfl rfl
  exact Function.update_idem _ _ _

/-- What a program imports goes into its list of functions and its outermost context. -/
theorem scopes_importGlobal {global source : GlobalId} {context : ContextId}
    (houtermost : t.scopes.outermost global = some context) (hcontext : t.scopes.program context = some global)
    (hsource : t.HasGlobal source) :
    (t.importGlobal global source).scopes = t.scopes.importAll global context [source] := by
  obtain ⟨s, hs⟩ : ∃ s, t.globalAt? source = some s :=
    ⟨t.globals[source.index], Array.getElem?_eq_getElem hsource⟩
  have hfunctions : [source].flatMap t.scopes.functions = s.functions := by
    simp only [List.flatMap_singleton, scopes, hs, Option.map_some, Option.getD_some]
  have hvars : [source].flatMap t.scopes.outerVars = t.variablesOf s.context := by
    simp only [List.flatMap_singleton, Scopes.outerVars, scopes, hs, Option.map_some, Option.getD_some]
  let t₁ := s.declaredTypes.foldl (importType global) t
  have h₁ : t₁.scopes = t.scopes := (TypeEdits.foldl (typeEdits_importType global) s.declaredTypes t).scopes
  let t₂ := t₁.modifyGlobal global fun g => { g with functions := s.functions.foldl appendNew g.functions }
  have h₂ : t₂.scopes = { t.scopes with
      functions := Function.update t.scopes.functions global
        (s.functions.foldl appendNew (t.scopes.functions global)) } := by
    have hlist := scopes_modifyGlobal (t := t₁) (q := fun list => s.functions.foldl appendNew list)
      (f := fun g => { g with functions := s.functions.foldl appendNew g.functions }) (fun _ => rfl)
      (fun _ => rfl) (fun _ => rfl) (hasGlobal_of_outermost (h₁.symm ▸ houtermost))
    rwa [h₁] at hlist
  obtain ⟨g, hg, rfl⟩ := exists_of_outermost (t := t₂) (x := global) (k := context)
    (by rw [h₂]; exact houtermost)
  have h₃ := scopes_modifyContext (t := t₂) (q := fun list => (t.variablesOf s.context).foldl appendNew list)
    (f := fun c => { c with vars := (t.variablesOf s.context).foldl appendNew c.vars }) (fun _ => rfl)
    (fun _ => rfl) (fun _ => rfl) (hasContext_of_program (k := g.context) (by rw [h₂]; exact hcontext))
  rw [h₂] at h₃
  unfold importGlobal Scopes.importAll
  rw [hs, hfunctions, hvars]
  dsimp only
  rw [hg]
  exact h₃

theorem scopes_foldl_importGlobal {global : GlobalId} {context : ContextId} {sources : List GlobalId}
    (houtermost : t.scopes.outermost global = some context) (hcontext : t.scopes.program context = some global)
    (hsources : ∀ i ∈ sources, i ≠ global ∧ ∃ k, t.scopes.outermost i = some k ∧ k ≠ context) :
    (sources.foldl (fun t source => t.importGlobal global source) t).scopes =
      t.scopes.importAll global context sources := by
  induction sources generalizing t with
  | nil => exact (Scopes.importAll_nil global context).symm
  | cons source sources ih =>
    obtain ⟨⟨-, k, hk, -⟩, hrest⟩ := List.forall_mem_cons.mp hsources
    have hfirst := scopes_importGlobal houtermost hcontext (hasGlobal_of_outermost hk)
    rw [List.foldl_cons, ih, hfirst, Scopes.importAll_cons]
    · intro i hi
      obtain ⟨hne, k, hk, hkne⟩ := hrest i hi
      exact ⟨hne, fun heq => hkne (Option.some.inj (hk.symm.trans heq))⟩
    all_goals rw [hfirst]; assumption

/-! ### What is visible -/

theorem mem_declare {shown : List VariableId} {id v : VariableId} (h : v ∈ t.declare shown id) :
    v ∈ shown ∨ v = id := by
  induction shown with
  | nil => exact Or.inr (List.mem_singleton.mp h)
  | cons first rest ih =>
    unfold declare at h
    split_ifs at h
    · rcases List.mem_cons.mp h with rfl | h
      · exact Or.inr rfl
      · exact Or.inl (List.mem_cons_of_mem first h)
    · rcases List.mem_cons.mp h with rfl | h
      · exact Or.inl List.mem_cons_self
      · exact (ih h).imp_left (List.mem_cons_of_mem first)

theorem mem_foldl_declare {ids shown : List VariableId} {v : VariableId} (h : v ∈ ids.foldl t.declare shown) :
    v ∈ shown ∨ v ∈ ids := by
  induction ids generalizing shown with
  | nil => exact Or.inl h
  | cons id ids ih =>
    rcases ih h with h | h
    · rcases mem_declare h with h | rfl
      · exact Or.inl h
      · exact Or.inr List.mem_cons_self
    · exact Or.inr (List.mem_cons_of_mem id h)

theorem inside_of_mem_chainUpTo {n : Nat} {d k : ContextId} (h : k ∈ t.chainUpTo n d) :
    t.scopes.Inside d k := by
  induction n generalizing d with
  | zero => exact absurd h List.not_mem_nil
  | succ n ih =>
    unfold chainUpTo at h
    rcases hd : t.contextAt? d with _ | c
    · simp [hd] at h
    · rw [hd] at h
      rcases List.mem_cons.mp h with rfl | h
      · exact .refl
      · rcases hu : c.upper with _ | u
        · simp [hu] at h
        · rw [hu] at h
          have hupper : t.scopes.upper d = some u := by simp only [scopes, hd, Option.bind_some, hu]
          exact .head hupper (ih h)

/-- A visible variable is listed by a context around the place. -/
theorem exists_inside_of_mem_visibleVariables {d : ContextId} {v : VariableId} (h : v ∈ t.visibleVariables d) :
    ∃ k, t.scopes.Inside d k ∧ v ∈ t.scopes.vars k := by
  have hlisted := (mem_foldl_declare h).resolve_left List.not_mem_nil
  obtain ⟨k, hk, hv⟩ := List.mem_flatMap.mp hlisted
  exact ⟨k, inside_of_mem_chainUpTo (List.mem_reverse.mp hk), hv⟩

end Table

end Cg

end ShaderAssist

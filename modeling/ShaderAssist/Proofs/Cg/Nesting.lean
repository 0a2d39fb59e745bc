import Mathlib.Data.List.Chain
import ShaderAssist.Proofs.Cg.Lexical
import ShaderAssist.Proofs.Cg.Reachable

/-!
# Nesting of contexts

The contexts of a table form one tree for each program (`Scopes.Nested`): a context around another one was there
before it, lists it once and is the only one that does, and only the outermost context of a program has none around
it. A function that has a body has its parameters among the variables of the body, in whichever order they were
given to it.

All operations on tables keep it so, so a walk outwards from a context comes to the outermost context of its
program (`walksOut_chainUpTo`).
-/

namespace ShaderAssist

namespace Cg

namespace Scopes

variable {σ : Scopes} {children : ContextId → List ContextId} {v : VariableId} {k u b : ContextId}
  {f : FunctionId} {x : GlobalId} {ids : List VariableId}

/-- **Trees of contexts.** The contexts that a context lists are given. -/
structure Nested (σ : Scopes) (children : ContextId → List ContextId) : Prop where
  /-- The context around a context has a smaller number, -/
  upper_lt : ∀ {k u}, σ.upper k = some u → u.index < k.index
  /-- lists it once, -/
  count_eq_one : ∀ {k u}, σ.upper k = some u → (children u).count k = 1
  /-- is the only one that lists it, -/
  upper_of_mem : ∀ {k u}, k ∈ children u → σ.upper k = some u
  /-- and is in the same program. -/
  program_upper : ∀ {k u}, σ.upper k = some u → σ.program u = σ.program k
  /-- The outermost context of a program is in it and has none around it, -/
  outermost : ∀ {x k}, σ.outermost x = some k → σ.upper k = none ∧ σ.program k = some x
  /-- and no other context of the program has none around it. -/
  outermost_of_upper : ∀ {x k}, σ.program k = some x → σ.upper k = none → σ.outermost x = some k
  /-- Parameters are variables of the body. -/
  parameter : ∀ {f b v}, σ.body f = some b → v ∈ σ.parameters f → v ∈ σ.vars b

theorem mem_vars_declare : v ∈ (σ.declare k ids).vars b ↔ v ∈ σ.vars b ∨ b = k ∧ v ∈ ids := by
  simp only [declare, Function.update_apply]
  split_ifs with hb
  · simp [hb]
  · simp [hb]

theorem IsFreshContext.ne_of_upper (hk : σ.IsFreshContext k) {j w : ContextId} (h : σ.upper j = some w) :
    j ≠ k ∧ w ≠ k := by
  constructor
  · rintro rfl
    exact Option.some_ne_none w (h.symm.trans hk.upper)
  · rintro rfl
    exact hk.upper_ne j h

theorem IsFreshContext.ne_of_outermost (hk : σ.IsFreshContext k) {j : ContextId} (h : σ.outermost x = some j) :
    j ≠ k := by
  rintro rfl
  exact hk.outermost_ne x h

theorem upper_nest_cases {j w : ContextId} (h : (σ.nest k u x).upper j = some w) :
    j = k ∧ w = u ∨ j ≠ k ∧ σ.upper j = some w := by
  simp only [nest, Function.update_apply] at h
  split_ifs at h with hj
  · exact Or.inl ⟨hj, (Option.some.inj h).symm⟩
  · exact Or.inr ⟨hj, h⟩

namespace Nested

/-! ### Effects keep contexts nested -/

theorem declare (h : σ.Nested children) (k : ContextId) (ids : List VariableId) :
    (σ.declare k ids).Nested children where
  __ := h
  parameter hb hv := mem_vars_declare.mpr (Or.inl (h.parameter hb hv))

theorem addFunction (h : σ.Nested children) (x : GlobalId) (f : FunctionId) :
    (σ.addFunction x f).Nested children :=
  { h with }

theorem withShader (h : σ.Nested children) (shader : GlobalId → Option ShaderId) :
    Scopes.Nested { σ with shader := shader } children :=
  { h with }

theorem importAll (h : σ.Nested children) (x : GlobalId) (k : ContextId) (sources : List GlobalId) :
    (σ.importAll x k sources).Nested children where
  __ := h
  parameter hb hv := subset_update (subset_foldl_appendNew _ _).1 _ (h.parameter hb hv)

/-- A parameter of a function without a body. -/
theorem addParameter (h : σ.Nested children) (hf : σ.body f = none) (v : VariableId) :
    (σ.addParameter f v).Nested children where
  __ := h
  parameter := by
    intro g b w hb hw
    rcases mem_addParameter.mp hw with hw | ⟨rfl, -⟩
    · exact h.parameter hb hw
    · exact absurd (hb.symm.trans hf) (Option.some_ne_none b)

/-- **A parameter of a function with a body** is declared in it. -/
theorem addParameter_body (h : σ.Nested children) (hf : σ.body f = some b) (v : VariableId) :
    ((σ.addParameter f v).declare b [v]).Nested children where
  __ := h
  parameter := by
    intro g c w hc hw
    rcases mem_addParameter.mp hw with hw | ⟨rfl, rfl⟩
    · exact mem_vars_declare.mpr (Or.inl (h.parameter hc hw))
    · obtain rfl := Option.some.inj (hf.symm.trans hc)
      exact mem_vars_declare.mpr (Or.inr ⟨rfl, List.mem_singleton.mpr rfl⟩)

/-- **The parameters of a function** are declared in the body that it gets. -/
theorem setBody (h : σ.Nested children) (f : FunctionId) (b : ContextId) :
    ((σ.setBody f b).declare b (σ.parameters f)).Nested children where
  __ := h
  parameter := by
    intro g c w hc hw
    by_cases hg : g = f
    · subst hg
      have hbody : (σ.setBody g b).body g = some b := Function.update_self _ _ _
      obtain rfl := Option.some.inj (hbody.symm.trans hc)
      exact mem_vars_declare.mpr (Or.inr ⟨rfl, hw⟩)
    · have hbody : (σ.setBody f b).body g = σ.body g := Function.update_of_ne hg _ _
      exact mem_vars_declare.mpr (Or.inl (h.parameter (hbody.symm.trans hc) hw))

/-- A new context is not listed anywhere. -/
theorem not_mem_children (h : σ.Nested children) (hk : σ.IsFreshContext k) (u : ContextId) :
    k ∉ children u :=
  fun hmem => Option.some_ne_none u ((h.upper_of_mem hmem).symm.trans hk.upper)

/-- **A new context** in another one. -/
theorem nest (h : σ.Nested children) (hk : σ.IsFreshContext k) (hlt : u.index < k.index)
    (hu : σ.program u = some x) :
    (σ.nest k u x).Nested (Function.update children u (children u ++ [k])) where
  upper_lt := by
    intro j w hj
    rcases upper_nest_cases hj with ⟨rfl, rfl⟩ | ⟨-, hj⟩
    · exact hlt
    · exact h.upper_lt hj
  count_eq_one := by
    intro j w hj
    rcases upper_nest_cases hj with ⟨rfl, rfl⟩ | ⟨hjk, hj⟩
    · rw [Function.update_self, List.count_append, List.count_eq_zero.mpr (h.not_mem_children hk w)]
      simp
    · have hcount := h.count_eq_one hj
      rw [Function.update_apply]
      split_ifs with hw
      · rw [← hw, List.count_append, hcount, List.count_singleton, if_neg (by simpa using Ne.symm hjk)]
      · exact hcount
  upper_of_mem := by
    intro j w hj
    have hcases : j ∈ children w ∨ w = u ∧ j = k := by
      rw [Function.update_apply] at hj
      split_ifs at hj with hw
      · rw [hw]
        exact (List.mem_append.mp hj).imp_right fun hj => ⟨rfl, List.mem_singleton.mp hj⟩
      · exact Or.inl hj
    rcases hcases with hmem | ⟨rfl, rfl⟩
    · have hupper := h.upper_of_mem hmem
      exact (Function.update_of_ne (hk.ne_of_upper hupper).1 _ _).trans hupper
    · exact Function.update_self _ _ _
  program_upper := by
    intro j w hj
    rcases upper_nest_cases hj with ⟨rfl, rfl⟩ | ⟨hjk, hj⟩
    · simp only [Scopes.nest, Function.update_self, Function.update_of_ne (hk.ne_of_program hu)]
      exact hu
    · simp only [Scopes.nest, Function.update_of_ne hjk, Function.update_of_ne (hk.ne_of_upper hj).2]
      exact h.program_upper hj
  outermost := by
    intro y j hj
    have hjk := hk.ne_of_outermost hj
    simp only [Scopes.nest, Function.update_of_ne hjk]
    exact h.outermost hj
  outermost_of_upper := by
    intro y j hy hj
    have hjk : j ≠ k := by
      rintro rfl
      have hself : (σ.nest j u x).upper j = some u := Function.update_self _ _ _
      exact Option.some_ne_none u (hself.symm.trans hj)
    simp only [Scopes.nest, Function.update_of_ne hjk] at hy hj
    exact h.outermost_of_upper hy hj
  parameter := h.parameter

/-- **A new program** with its outermost context. -/
theorem addProgram (h : σ.Nested children) (hk : σ.IsFreshContext k) (hx : σ.IsFreshProgram x)
    (shader : Option ShaderId) : (σ.addProgram x k shader).Nested children where
  __ := h
  program_upper := by
    intro j w hj
    obtain ⟨hjk, hwk⟩ := hk.ne_of_upper hj
    simp only [Scopes.addProgram, Function.update_of_ne hjk, Function.update_of_ne hwk]
    exact h.program_upper hj
  outermost := by
    intro y j hj
    simp only [Scopes.addProgram, Function.update_apply] at hj ⊢
    split_ifs at hj with hy
    · obtain rfl := Option.some.inj hj
      exact ⟨hk.upper, by rw [if_pos rfl, hy]⟩
    · rw [if_neg (hk.ne_of_outermost hj)]
      exact h.outermost hj
  outermost_of_upper := by
    intro y j hy hj
    simp only [Scopes.addProgram, Function.update_apply] at hy ⊢
    split_ifs at hy with hjk
    · obtain rfl := Option.some.inj hy
      rw [if_pos rfl, hjk]
    · have hyx : y ≠ x := by
        rintro rfl
        exact hx.program_ne j hy
      rw [if_neg hyx]
      exact h.outermost_of_upper hy hj

end Nested

end Scopes

namespace Table

variable {t t' : Table}

/-! ### Contexts that a context lists -/

/-- The contexts that a context lists. -/
def children (t : Table) (id : ContextId) : List ContextId :=
  ((t.contextAt? id).map Context.contexts).getD []

theorem children_modifyVars (t : Table) (id : ContextId) (f : List VariableId → List VariableId) :
    (t.modifyContext id fun c => { c with vars := f c.vars }).children = t.children :=
  lookup_modify_of_eq (p := fun c => (c.map Context.contexts).getD [])
    (f := fun c => { c with vars := f c.vars }) (fun _ => rfl) t.contexts id.index

theorem children_addVariable (t : Table) (context : ContextId) (id : VariableId) :
    (t.addVariable context id).children = t.children :=
  t.children_modifyVars context (· ++ [id])

theorem children_foldl_addVariable (context : ContextId) (ids : List VariableId) (t : Table) :
    (ids.foldl (fun t id => t.addVariable context id) t).children = t.children := by
  induction ids generalizing t with
  | nil => rfl
  | cons id ids ih => exact (ih _).trans (t.children_addVariable context id)

/-- Types have no part in contexts. -/
theorem TypeEdits.children (h : TypeEdits t t') : t'.children = t.children := by
  refine h.eq fun hedit => ?_
  cases hedit <;> rfl

/-! ### Operations keep contexts nested -/

theorem children_createContext {upper : ContextId} {u : Context} (hu : t.contextAt? upper = some u) :
    (t.createContext upper).2.children =
      Function.update t.children upper (t.children upper ++ [⟨t.contexts.size⟩]) := by
  let t' : Table := { t with contexts := t.contexts.push { upper := some upper, global := u.global } }
  have hpush : t'.children = t.children :=
    lookup_push_of_eq (p := fun c => (c.map Context.contexts).getD []) rfl
  have hupper : upper.index < t'.contexts.size := by
    have := (Array.getElem?_eq_some_iff.mp hu).1
    simp only [t', Array.size_push]
    omega
  unfold createContext
  rw [hu, ← hpush]
  exact lookup_modify (p := fun c => (c.map Context.contexts).getD [])
    (f := fun c => { c with contexts := c.contexts ++ [⟨t.contexts.size⟩] }) (q := (· ++ [⟨t.contexts.size⟩]))
    ContextId.index_injective (fun _ => rfl) hupper

theorem children_importGlobal (t : Table) (x source : GlobalId) : (t.importGlobal x source).children = t.children := by
  unfold importGlobal
  split
  · rfl
  next s _ =>
    have htypes := (TypeEdits.foldl (typeEdits_importType x) s.declaredTypes t).children
    dsimp only
    split
    · exact htypes
    · exact (children_modifyVars _ _ (((t.contextAt? s.context).map Context.vars).getD [] |>.foldl appendNew ·)).trans
        htypes

theorem children_createGlobal (t : Table) (v : Vocabulary) : (t.createGlobal v).2.children = t.children :=
  (t.typeEdits_createGlobal v).children.trans
    (lookup_push_of_eq (p := fun c => (c.map Context.contexts).getD []) rfl)

theorem children_addParameter (t : Table) (f : FunctionId) (v : VariableId) :
    (t.addParameter f v).children = t.children := by
  unfold addParameter
  dsimp only
  split
  · exact children_addVariable _ _ _
  · rfl

theorem children_setBody (t : Table) (f : FunctionId) (b : ContextId) : (t.setBody f b).children = t.children :=
  children_foldl_addVariable b _ _

/-- **One declaration** keeps contexts nested. -/
theorem Step.nested (hstep : Step t t') (hc : t.Closed) (h : t.scopes.Nested t.children) :
    t'.scopes.Nested t'.children := by
  cases hstep with
  | createVariable name semantics _ => rwa [scopes_createVariable]
  | setArraySize id size => rwa [scopes_setArraySize]
  | addVariable hcontext hid =>
    rw [scopes_addVariable hcontext hid, children_addVariable]
    exact h.declare _ _
  | addMember _ _ => rwa [scopes_addMember]
  | addType name _ =>
    rw [scopes_addType, (t.typeEdits_addType _ name).children]
    exact h
  | resolveType name _ =>
    rw [scopes_resolveType, (t.typeEdits_resolveType _ name).children]
    exact h
  | createContext hupper =>
    have hu := Array.getElem?_eq_getElem hupper
    rw [scopes_createContext hu, children_createContext hu]
    exact h.nest (hc.isFreshContext (Nat.lt_irrefl _)) hupper (congrArg (Option.map Context.global) hu)
  | addFunction name semantics hglobal _ =>
    rw [scopes_addFunction hglobal]
    exact h.addFunction _ _
  | @addParameter function parameter hfunction hparameter =>
    rw [scopes_addParameter hc hfunction hparameter, children_addParameter]
    cases hbody : t.scopes.body function with
    | none => exact h.addParameter hbody _
    | some b => exact h.addParameter_body hbody _
  | setBody hfunction hcontext =>
    rw [scopes_setBody hc hfunction hcontext, children_setBody]
    exact h.setBody _ _

/-- **One operation** keeps contexts nested. -/
theorem Operation.nested (hop : Operation t t') (hc : t.Closed) (h : t.scopes.Nested t.children) :
    t'.scopes.Nested t'.children := by
  cases hop with
  | declare hstep => exact hstep.nested hc h
  | createGlobal v =>
    rw [scopes_createGlobal_unlinked, children_createGlobal]
    exact h.addProgram (hc.isFreshContext (Nat.lt_irrefl _)) (hc.isFreshProgram (Nat.lt_irrefl _)) none
  | importGlobal hglobal hsource =>
    obtain ⟨k, hk⟩ := hglobal.exists_outermost
    rw [scopes_importGlobal hk (h.outermost hk).2 hsource, children_importGlobal]
    exact h.importAll _ _ _
  | setShader shader hglobal =>
    rw [scopes_setShader hglobal]
    exact h.withShader _

theorem nested_empty : ({} : Table).scopes.Nested ({} : Table).children := by
  constructor <;> simp [scopes, children, contextAt?, globalAt?, functionAt?]

/-! ### Walks outwards -/

/-- A walk outwards from a context: it goes from each context to the one around it, and ends with the outermost
context of the program that the context is in. -/
structure WalksOut (t : Table) (context : ContextId) (walk : List ContextId) : Prop where
  head : walk.head? = some context
  next : walk.IsChain fun k u => t.scopes.upper k = some u
  last : ∃ x k, t.scopes.program context = some x ∧ t.scopes.outermost x = some k ∧ walk.getLast? = some k

theorem WalksOut.cons {k u : ContextId} {walk : List ContextId} (h : t.scopes.Nested t.children)
    (hu : t.scopes.upper k = some u) (hwalk : t.WalksOut u walk) : t.WalksOut k (k :: walk) := by
  obtain ⟨walk, rfl⟩ := List.head?_eq_some_iff.mp hwalk.head
  obtain ⟨x, j, hx, hj, hlast⟩ := hwalk.last
  exact ⟨rfl, List.isChain_cons_cons.mpr ⟨hu, hwalk.next⟩, x, j, (h.program_upper hu).symm.trans hx, hj,
    by rwa [List.getLast?_cons_cons]⟩

/-- Numbers become smaller on the way outwards, so the number of a context bounds the walk from it. -/
theorem walksOut_chainUpTo (hc : t.Closed) (h : t.scopes.Nested t.children) : ∀ (n : Nat) {k : ContextId},
    t.HasContext k → k.index < n → t.WalksOut k (t.chainUpTo n k)
  | 0, _, _, hn => absurd hn (Nat.not_lt_zero _)
  | n + 1, k, hk, hn => by
    have hcontext : t.contextAt? k = some t.contexts[k.index] := Array.getElem?_eq_getElem hk
    have hupper : t.scopes.upper k = t.contexts[k.index].upper := congrArg (·.bind Context.upper) hcontext
    have hprogram : t.scopes.program k = some t.contexts[k.index].global :=
      congrArg (Option.map Context.global) hcontext
    rw [chainUpTo, hcontext]
    dsimp only
    cases hu : t.contexts[k.index].upper with
    | none => exact ⟨rfl, .singleton k, _, k, hprogram, h.outermost_of_upper hprogram (hupper.trans hu), rfl⟩
    | some u =>
      have hku := hupper.trans hu
      have hlt := h.upper_lt hku
      have hcontext : t.HasContext u := (hc.contexts _ (Array.getElem_mem hk)).upper u hu
      exact (walksOut_chainUpTo hc h n hcontext (by omega)).cons h hku

/-- **Contexts of reachable tables**: all numbers in the table are handed out, the contexts form one tree for each
program, and walks outwards come to its outermost context. -/
theorem nested_of_reachable (t : Table) (h : t.Reachable) :
    t.Closed ∧ t.scopes.Nested t.children ∧ ∀ k, t.HasContext k → t.WalksOut k (t.chain k) := by
  obtain ⟨hc, hnested⟩ := h.induct nested_empty fun hc h hop => hop.nested hc h
  exact ⟨hc, hnested, fun k hk => walksOut_chainUpTo hc hnested t.contexts.size hk hk⟩

/-- A program with a function that has one parameter. -/
def oneParameter : Table :=
  let t := (({} : Table).createGlobal default).2
  let t := (t.addType ⟨0⟩ "T").2
  let t := (t.createVariable ⟨0⟩ "a" none).2
  let t := (t.addFunction ⟨0⟩ ⟨0⟩ "f" none).2
  t.addParameter ⟨0⟩ ⟨0⟩

/-- The function with a body in which there is a block, and with one more parameter. -/
def twoParameters : Table :=
  let t := (oneParameter.createContext ⟨0⟩).2
  let t := t.setBody ⟨0⟩ ⟨1⟩
  let t := (t.createVariable ⟨0⟩ "b" none).2
  let t := t.addParameter ⟨0⟩ ⟨1⟩
  (t.createContext ⟨1⟩).2

theorem reachable_oneParameter : oneParameter.Reachable := by
  unfold oneParameter
  refine Reachable.step ?_ (.declare (.addParameter (by decide) (by decide)))
  refine Reachable.step ?_ (.declare (.addFunction "f" none (by decide) (by decide)))
  refine Reachable.step ?_ (.declare (.createVariable "a" none (by decide)))
  refine Reachable.step ?_ (.declare (.addType "T" (by decide)))
  exact Reachable.createGlobal .refl default

theorem reachable_twoParameters : twoParameters.Reachable := by
  refine Reachable.step ?_ (.declare (.createContext (by decide)))
  refine Reachable.step ?_ (.declare (.addParameter (by decide) (by decide)))
  refine Reachable.step ?_ (.declare (.createVariable "b" none (by decide)))
  refine Reachable.step ?_ (.declare (.setBody (by decide) (by decide)))
  refine Reachable.step ?_ (.declare (.createContext (by decide)))
  exact reachable_oneParameter

theorem nested_of_reachable_twoParameters : twoParameters.scopes.Nested twoParameters.children ∧
    twoParameters.scopes.parameters ⟨0⟩ = [⟨0⟩, ⟨1⟩] ∧ twoParameters.WalksOut ⟨2⟩ [⟨2⟩, ⟨1⟩, ⟨0⟩] := by
  obtain ⟨-, hnested, hwalks⟩ := nested_of_reachable twoParameters reachable_twoParameters
  have hchain : twoParameters.chain ⟨2⟩ = [⟨2⟩, ⟨1⟩, ⟨0⟩] := by decide
  exact ⟨hnested, by decide, hchain ▸ hwalks ⟨2⟩ (by decide)⟩

end Table

end Cg

end ShaderAssist

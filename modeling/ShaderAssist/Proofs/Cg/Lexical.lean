import Mathlib.Logic.Relation
import ShaderAssist.Proofs.Cg.Scopes

/-!
# Lexical scopes

A variable is listed by the context it belongs to, and by no other one but the outermost contexts of programs
that import it (`Scopes.Lexical`). All effects on scopes keep it so. Therefore a variable that is visible at a
place belongs to a context around the place or is imported (`Lexical.of_visible`), and what belongs to a
function is visible inside its body only (`Lexical.inside_of_isLocal`).
-/

namespace ShaderAssist

namespace Cg

namespace Scopes

variable {σ : Scopes} {includes includes' : Option ShaderId → List GlobalId} {v : VariableId}
  {d j k u : ContextId} {f : FunctionId} {i x : GlobalId} {ids : List VariableId}

/-- A context is the outermost one of a program whose shader has an include block with the other context as its
outermost one. -/
def Imports (σ : Scopes) (includes : Option ShaderId → List GlobalId) (k j : ContextId) : Prop :=
  ∃ x, σ.outermost x = some k ∧ ∃ i ∈ includes (σ.shader x), σ.outermost i = some j

/-- Scopes in which variables belong to the contexts that list them. The include blocks of each shader are
given. -/
structure Lexical (σ : Scopes) (includes : Option ShaderId → List GlobalId) : Prop where
  /-- A context is in the same program as the one around it, -/
  program_upper : ∀ {k u}, σ.upper k = some u → σ.program u = σ.program k
  /-- and the outermost one has none around it. -/
  outermost : ∀ {x k}, σ.outermost x = some k → σ.upper k = none ∧ σ.program k = some x
  body : ∀ {f k}, σ.body f = some k → (σ.upper k).isSome
  body_unique : ∀ {f g k}, σ.body f = some k → σ.body g = some k → f = g
  /-- A variable is listed by its own context, or where it is imported. -/
  owner : ∀ {v k}, v ∈ σ.vars k → ∃ j, σ.owner v = some j ∧ (j = k ∨ σ.Imports includes k j)
  /-- A parameter belongs to nothing but the body of its function. -/
  parameter : ∀ {v f}, v ∈ σ.parameters f → σ.owner v = none ∨ σ.owner v = σ.body f
  parameter_unique : ∀ {v f g}, v ∈ σ.parameters f → v ∈ σ.parameters g → f = g

theorem mem_addParameter {w : VariableId} {g : FunctionId} :
    w ∈ (σ.addParameter f v).parameters g ↔ w ∈ σ.parameters g ∨ g = f ∧ w = v := by
  simp only [addParameter, Function.update_apply]
  split_ifs with hg
  · simp [hg]
  · simp [hg]

namespace Lexical

theorem mono (h : σ.Lexical includes) (hsub : ∀ sh, includes sh ⊆ includes' sh) : σ.Lexical includes' where
  __ := h
  owner := by
    intro v k hv
    obtain ⟨j, hj, hjk⟩ := h.owner hv
    refine ⟨j, hj, hjk.imp_right ?_⟩
    rintro ⟨x, hx, i, hi, hij⟩
    exact ⟨x, hx, i, hsub _ hi, hij⟩

/-! ### Effects keep scopes lexical -/

/-- Variables that belong to nothing are declared in a context. Those that are parameters are so of a function
with this body. -/
theorem declare (h : σ.Lexical includes) (hids : ∀ v ∈ ids, σ.owner v = none)
    (hparameters : ∀ v ∈ ids, ∀ f, v ∈ σ.parameters f → σ.body f = some k) :
    (σ.declare k ids).Lexical includes where
  __ := h
  owner := by
    intro v c hv
    by_cases hmem : v ∈ ids
    · refine ⟨k, if_pos hmem, Or.inl ?_⟩
      by_contra hne
      -- a variable that belongs to nothing is not listed elsewhere
      simp only [Scopes.declare, Function.update_apply, if_neg (Ne.symm hne)] at hv
      obtain ⟨j, hj, -⟩ := h.owner hv
      exact Option.some_ne_none _ (hj.symm.trans (hids v hmem))
    · have hv' : v ∈ σ.vars c := by
        simp only [Scopes.declare, Function.update_apply] at hv
        split_ifs at hv with hc
        · rw [hc]
          exact (List.mem_append.mp hv).resolve_right hmem
        · exact hv
      obtain ⟨j, hj, hjc⟩ := h.owner hv'
      exact ⟨j, (if_neg hmem).trans hj, hjc⟩
  parameter := by
    intro v f hv
    by_cases hmem : v ∈ ids
    · exact Or.inr ((if_pos hmem).trans (hparameters v hmem f hv).symm)
    · exact (h.parameter hv).imp (if_neg hmem).trans (if_neg hmem).trans

theorem addFunction (h : σ.Lexical includes) (x : GlobalId) (f : FunctionId) :
    (σ.addFunction x f).Lexical includes :=
  { h with }

theorem addParameter (h : σ.Lexical includes) (hv : σ.IsFreshVariable v) (f : FunctionId) :
    (σ.addParameter f v).Lexical includes where
  __ := h
  parameter := by
    intro w g hw
    rcases mem_addParameter.mp hw with hw | ⟨-, rfl⟩
    · exact h.parameter hw
    · exact Or.inl hv.owner
  parameter_unique := by
    intro w g g' hg hg'
    rcases mem_addParameter.mp hg with hw | ⟨rfl, rfl⟩
    · rcases mem_addParameter.mp hg' with hw' | ⟨-, rfl⟩
      · exact h.parameter_unique hw hw'
      · exact absurd hw (hv.parameters g)
    · rcases mem_addParameter.mp hg' with hw' | ⟨rfl, -⟩
      · exact absurd hw' (hv.parameters g')
      · rfl

theorem nest (h : σ.Lexical includes) (hk : σ.IsFreshContext k) (hu : σ.program u = some x) :
    (σ.nest k u x).Lexical includes where
  __ := h
  program_upper := by
    intro c w hw
    have hprogram : ∀ {c}, c ≠ k → (σ.nest k u x).program c = σ.program c :=
      fun hne => Function.update_of_ne hne _ _
    have hself : (σ.nest k u x).program k = some x := by simp [Scopes.nest]
    by_cases hc : c = k
    · obtain rfl : w = u := by simpa [Scopes.nest, hc, eq_comm] using hw
      rw [hprogram (hk.ne_of_program hu), hu, hc, hself]
    · have hw' : σ.upper c = some w := (Function.update_of_ne hc _ _).symm.trans hw
      have hne : w ≠ k := fun heq => hk.upper_ne c (heq ▸ hw')
      rw [hprogram hne, hprogram hc, h.program_upper hw']
  outermost := by
    intro y c hc
    have hne : c ≠ k := fun heq => hk.outermost_ne y (heq ▸ hc)
    obtain ⟨hupper, hprogram⟩ := h.outermost hc
    exact ⟨(Function.update_of_ne hne _ _).trans hupper, (Function.update_of_ne hne _ _).trans hprogram⟩
  body := by
    intro g c hc
    have hne : c ≠ k := fun heq => hk.body_ne g (heq ▸ hc)
    simpa only [Scopes.nest, Function.update_of_ne hne] using h.body hc

theorem setBody (h : σ.Lexical includes) (hf : σ.body f = none) (hk : (σ.upper k).isSome)
    (hnew : ∀ g, σ.body g ≠ some k) : (σ.setBody f k).Lexical includes where
  __ := h
  body := by
    intro g c hc
    simp only [Scopes.setBody, Function.update_apply] at hc
    split_ifs at hc
    · exact Option.some.inj hc ▸ hk
    · exact h.body hc
  body_unique := by
    intro g g' c hc hc'
    simp only [Scopes.setBody, Function.update_apply] at hc hc'
    split_ifs at hc hc' with hg hg' hg'
    · rw [hg, hg']
    · exact absurd (hc'.trans hc.symm) (hnew g')
    · exact absurd (hc.trans hc'.symm) (hnew g)
    · exact h.body_unique hc hc'
  parameter := by
    intro w g hw
    by_cases hg : g = f
    · have hnone := h.parameter hw
      rw [hg, hf, or_self] at hnone
      exact Or.inl hnone
    · exact (h.parameter hw).imp_right fun hown => hown.trans (Function.update_of_ne hg _ _).symm

theorem addProgram (h : σ.Lexical includes) (hx : σ.IsFreshProgram x) (hk : σ.IsFreshContext k)
    (shader : Option ShaderId) : (σ.addProgram x k shader).Lexical includes where
  __ := h
  program_upper := by
    intro c w hw
    have hcne : c ≠ k := by
      rintro rfl
      exact Option.some_ne_none _ (hw.symm.trans hk.upper)
    have hwne : w ≠ k := fun heq => hk.upper_ne c (heq ▸ hw)
    exact (Function.update_of_ne hwne _ _).trans
      ((h.program_upper hw).trans (Function.update_of_ne hcne _ _).symm)
  outermost := by
    intro y c hc
    simp only [Scopes.addProgram, Function.update_apply] at hc ⊢
    split_ifs at hc with hy
    · obtain rfl := Option.some.inj hc
      exact ⟨hk.upper, by rw [if_pos rfl, hy]⟩
    · have hne : c ≠ k := fun heq => hk.outermost_ne y (heq ▸ hc)
      rw [if_neg hne]
      exact h.outermost hc
  owner := by
    intro w c hw
    obtain ⟨j, hj, hjc⟩ := h.owner hw
    refine ⟨j, hj, hjc.imp_right ?_⟩
    rintro ⟨y, hy, i, hi, hij⟩
    -- the new program is none of those that the import is about
    have hyne := hx.ne_of_outermost hy
    have hine := hx.ne_of_outermost hij
    refine ⟨y, (Function.update_of_ne hyne _ _).trans hy, i, ?_, (Function.update_of_ne hine _ _).trans hij⟩
    simpa only [Scopes.addProgram, Function.update_of_ne hyne] using hi

theorem importAll (h : σ.Lexical includes) (hk : σ.outermost x = some k)
    (hshader : ∀ i ∈ includes (σ.shader x), σ.shader i = σ.shader x) :
    (σ.importAll x k (includes (σ.shader x))).Lexical includes where
  __ := h
  owner := by
    intro w c hw
    simp only [Scopes.importAll, Function.update_apply] at hw
    split_ifs at hw with hc
    · subst hc
      rcases Table.mem_foldl_appendNew _ hw with hw | hw
      · exact h.owner hw
      · obtain ⟨i, hi, hw⟩ := List.mem_flatMap.mp hw
        obtain ⟨_, hlist, hw⟩ := Table.mem_getD_nil_iff.mp hw
        obtain ⟨b, hb, rfl⟩ := Option.map_eq_some_iff.mp hlist
        obtain ⟨j, hj, rfl | ⟨y, hy, i', hi', hij⟩⟩ := h.owner hw
        · exact ⟨j, hj, Or.inr ⟨x, hk, i, hi, hb⟩⟩
        · -- what the include block imports itself comes from an include block of the same shader
          obtain rfl : y = i := Option.some.inj ((h.outermost hy).2.symm.trans (h.outermost hb).2)
          rw [hshader y hi] at hi'
          exact ⟨j, hj, Or.inr ⟨x, hk, i', hi', hij⟩⟩
    · exact h.owner hw

/-! ### Isolation -/

theorem program_of_inside (h : σ.Lexical includes) (hd : σ.Inside d k) : σ.program d = σ.program k := by
  induction hd with
  | refl => rfl
  | tail _ hu ih => exact ih.trans (h.program_upper hu).symm

end Lexical

/-- A variable belongs to a function: it is a parameter, or its context is inside the body. -/
def IsLocal (σ : Scopes) (f : FunctionId) (v : VariableId) : Prop :=
  v ∈ σ.parameters f ∨ ∃ k b, σ.owner v = some k ∧ σ.body f = some b ∧ σ.Inside k b

namespace Lexical

variable {t : Table} (h : t.scopes.Lexical includes)

include h

/-- **A visible variable** belongs to a context around the place, or the program imports it. -/
theorem of_visible (hv : v ∈ t.visibleVariables d) : ∃ k, t.scopes.owner v = some k ∧
    (t.scopes.Inside d k ∨ ∃ x top, t.scopes.program d = some x ∧ t.scopes.outermost x = some top ∧
      v ∈ t.scopes.vars top ∧ ∃ i ∈ includes (t.scopes.shader x), t.scopes.outermost i = some k) := by
  obtain ⟨c, hc, hv⟩ := Table.exists_inside_of_mem_visibleVariables hv
  obtain ⟨k, hk, rfl | ⟨x, hx, i, hi, hik⟩⟩ := h.owner hv
  · exact ⟨k, hk, Or.inl hc⟩
  · have hprogram := (h.program_of_inside hc).trans (h.outermost hx).2
    exact ⟨k, hk, Or.inr ⟨x, c, hprogram, hx, hv, i, hi, hik⟩⟩

/-- **What belongs to a function** is visible inside its body only. -/
theorem inside_of_isLocal (hf : t.scopes.IsLocal f v) (hv : v ∈ t.visibleVariables d) :
    ∃ b, t.scopes.body f = some b ∧ t.scopes.Inside d b := by
  obtain ⟨k, b, hk, hb, hkb⟩ : ∃ k b, t.scopes.owner v = some k ∧ t.scopes.body f = some b ∧
      t.scopes.Inside k b := by
    rcases hf with hf | hf
    · obtain ⟨k, hk, -⟩ := h.of_visible hv
      have hbody := (h.parameter hf).resolve_left (by simp [hk])
      exact ⟨k, k, hk, hbody.symm.trans hk, .refl⟩
    · exact hf
  refine ⟨b, hb, ?_⟩
  obtain ⟨k', hk', hinside | ⟨x, top, -, -, -, i, -, hi⟩⟩ := h.of_visible hv
  all_goals obtain rfl := Option.some.inj (hk.symm.trans hk')
  · exact hinside.trans hkb
  · -- an outermost context is inside no body
    rcases hkb.cases_head with rfl | ⟨u, hu, -⟩
    · exact absurd (h.body hb) (by simp [(h.outermost hi).1])
    · exact absurd (hu.symm.trans (h.outermost hi).1) (Option.some_ne_none _)

end Lexical

end Scopes

end Cg

end ShaderAssist

import ShaderAssist.Proofs.Cg.Types

/-!
# Importing a program

A program that imports another one gets longer lists of types, functions and outermost variables, and nothing else in
the table changes (`Table.redeclare`). Types come in by their names and everything else by its number. What is
imported once is there, so importing it again changes nothing, and neither does importing a program into itself
(`importGlobal_of_subset`).
-/

namespace ShaderAssist

theorem modify_congr {α : Type} {xs : Array α} {i : Nat} {f k : α → α}
    (h : ∀ a, xs[i]? = some a → f a = k a) : xs.modify i f = xs.modify i k := by
  apply Array.ext_getElem?
  intro j
  rw [Array.getElem?_modify, Array.getElem?_modify]
  split_ifs with hj
  · subst hj
    exact Option.map_congr h
  · rfl

theorem modify_eq_self {α : Type} {xs : Array α} {i : Nat} {f : α → α} (h : ∀ a, xs[i]? = some a → f a = a) :
    xs.modify i f = xs := by
  rw [modify_congr (k := id) h, modify_id]

theorem modify_modify {α : Type} (xs : Array α) (i : Nat) (f k : α → α) :
    (xs.modify i f).modify i k = xs.modify i (k ∘ f) := by
  apply Array.ext_getElem?
  intro j
  simp only [Array.getElem?_modify]
  split_ifs
  · rw [Option.map_map]
  · rfl

namespace Cg

namespace Table

variable {t t' : Table} {x source : GlobalId} {g s : Global}

/-! ### Lists without repetitions of what is new -/

section AppendNew

variable {α : Type} [DecidableEq α]

theorem isPrefix_foldl_appendNew (ys xs : List α) : xs <+: ys.foldl appendNew xs := by
  induction ys generalizing xs with
  | nil => exact List.prefix_rfl
  | cons y ys ih =>
    refine List.IsPrefix.trans ?_ (ih (appendNew xs y))
    unfold appendNew
    split_ifs
    · exact List.prefix_rfl
    · exact List.prefix_append xs [y]

theorem foldl_appendNew_of_subset {ys xs : List α} (h : ys ⊆ xs) : ys.foldl appendNew xs = xs := by
  induction ys with
  | nil => rfl
  | cons y ys ih =>
    obtain ⟨hy, hys⟩ := List.cons_subset.mp h
    rw [List.foldl_cons, appendNew, if_pos hy]
    exact ih hys

/-- What is appended is there as often as before, or once if it was absent. -/
theorem count_foldl_appendNew (ys xs : List α) (a : α) :
    (ys.foldl appendNew xs).count a = if a ∈ ys then max 1 (xs.count a) else xs.count a := by
  induction ys generalizing xs with
  | nil => rfl
  | cons y ys ih =>
    have hy : (appendNew xs y).count a = if a = y then max 1 (xs.count a) else xs.count a := by
      unfold appendNew
      by_cases hay : a = y
      · subst hay
        rw [if_pos rfl]
        split_ifs with hmem
        · have := List.one_le_count_iff.mpr hmem
          omega
        · rw [List.count_append, List.count_eq_zero.mpr hmem, List.count_singleton_self]
          rfl
      · rw [if_neg hay]
        split_ifs
        · rfl
        · have hnot : a ∉ [y] := by simpa using hay
          rw [List.count_append, List.count_eq_zero.mpr hnot, Nat.add_zero]
    rw [List.foldl_cons, ih, hy]
    by_cases ha : a ∈ ys
    · rw [if_pos ha, if_pos (List.mem_cons_of_mem y ha)]
      split_ifs
      · omega
      · rfl
    · rw [if_neg ha]
      by_cases hay : a = y
      · rw [if_pos hay, if_pos (List.mem_cons.mpr (Or.inl hay))]
      · rw [if_neg hay, if_neg (List.not_mem_cons_of_ne_of_not_mem hay ha)]

end AppendNew

/-! ### What importing changes -/

/-- The table with other declarations of a program: the types and functions that it lists, and the variables of its
outermost context. -/
def redeclare (t : Table) (x : GlobalId) (types : List TypeId) (functions : List FunctionId)
    (vars : List VariableId) : Table :=
  { t with
    globals := t.globals.modify x.index fun g => { g with declaredTypes := types, functions := functions }
    contexts := match t.globalAt? x with
      | some g => t.contexts.modify g.context.index fun c => { c with vars := vars }
      | none => t.contexts }

theorem globalAt?_modifyGlobal_self (hg : t.globalAt? x = some g) (f : Global → Global) :
    (t.modifyGlobal x f).globalAt? x = some (f g) := by
  unfold globalAt? modifyGlobal at *
  rw [Array.getElem?_modify, if_pos rfl, hg]
  rfl

theorem modifyGlobal_congr (hg : t.globalAt? x = some g) {f k : Global → Global} (h : f g = k g) :
    t.modifyGlobal x f = t.modifyGlobal x k := by
  unfold modifyGlobal
  rw [modify_congr fun a ha => ?_]
  obtain rfl := Option.some.inj (hg.symm.trans ha)
  exact h

theorem modifyGlobal_eq_self (hg : t.globalAt? x = some g) {f : Global → Global} (h : f g = g) :
    t.modifyGlobal x f = t := by
  rw [modifyGlobal_congr hg (k := id) h, modifyGlobal, modify_id]

/-- Only the list of types of the program changes. -/
theorem exists_foldl_importType (hg : t.globalAt? x = some g) (ids : List TypeId) : ∃ types,
    ids.foldl (importType x) t = t.modifyGlobal x fun g => { g with declaredTypes := types } := by
  induction ids generalizing t g with
  | nil => exact ⟨g.declaredTypes, (modifyGlobal_eq_self hg rfl).symm⟩
  | cons id ids ih =>
    obtain ⟨types, hfirst⟩ : ∃ types,
        importType x t id = t.modifyGlobal x fun g => { g with declaredTypes := types } := by
      unfold importType
      split
      · exact ⟨g.declaredTypes, (modifyGlobal_eq_self hg rfl).symm⟩
      · split_ifs
        · exact ⟨g.declaredTypes, (modifyGlobal_eq_self hg rfl).symm⟩
        · exact ⟨g.declaredTypes ++ [id], modifyGlobal_congr hg rfl⟩
    obtain ⟨types', hrest⟩ := ih (globalAt?_modifyGlobal_self hg fun g => { g with declaredTypes := types })
    refine ⟨types', ?_⟩
    rw [List.foldl_cons, hfirst, hrest]
    unfold modifyGlobal
    rw [modify_modify]
    rfl

/-- **What importing changes.** -/
theorem exists_importGlobal (hg : t.globalAt? x = some g) (hs : t.globalAt? source = some s) : ∃ types,
    t.importGlobal x source = t.redeclare x types (s.functions.foldl appendNew g.functions)
      ((t.variablesOf s.context).foldl appendNew (t.variablesOf g.context)) := by
  obtain ⟨types, htypes⟩ := exists_foldl_importType hg s.declaredTypes
  refine ⟨types, ?_⟩
  have hglobal := globalAt?_modifyGlobal_self
    (globalAt?_modifyGlobal_self hg fun g => { g with declaredTypes := types })
    fun g => { g with functions := s.functions.foldl appendNew g.functions }
  unfold importGlobal
  rw [hs]
  dsimp only
  rw [htypes, hglobal]
  have hglobals : (t.globals.modify x.index fun g => { g with declaredTypes := types }).modify x.index
      (fun g => { g with functions := s.functions.foldl appendNew g.functions }) =
        t.globals.modify x.index fun h =>
          { h with declaredTypes := types, functions := s.functions.foldl appendNew g.functions } := by
    rw [modify_modify, modify_congr fun a ha => ?_]
    obtain rfl := Option.some.inj (hg.symm.trans ha)
    rfl
  have hcontexts : (t.contexts.modify g.context.index fun c =>
      { c with vars := (t.variablesOf s.context).foldl appendNew c.vars }) =
        t.contexts.modify g.context.index fun c =>
          { c with vars := (t.variablesOf s.context).foldl appendNew (t.variablesOf g.context) } := by
    refine modify_congr fun c hc => ?_
    have hvars : t.variablesOf g.context = c.vars := by
      unfold variablesOf contextAt?
      rw [hc]
      rfl
    rw [hvars]
  unfold redeclare
  rw [hg]
  dsimp only
  rw [← hglobals, ← hcontexts]
  rfl

section Redeclare

variable (hg : t.globalAt? x = some g) (types : List TypeId) (functions : List FunctionId) (vars : List VariableId)

include hg

theorem globalAt?_redeclare_self : (t.redeclare x types functions vars).globalAt? x =
    some { g with declaredTypes := types, functions := functions } :=
  globalAt?_modifyGlobal_self hg fun g => { g with declaredTypes := types, functions := functions }

omit hg in
theorem globalAt?_redeclare_of_ne {y : GlobalId} (hy : y ≠ x) :
    (t.redeclare x types functions vars).globalAt? y = t.globalAt? y := by
  unfold globalAt? redeclare
  dsimp only
  rw [Array.getElem?_modify, if_neg fun h => hy (GlobalId.index_injective h).symm]

theorem variablesOf_redeclare_self (hcontext : t.HasContext g.context) :
    (t.redeclare x types functions vars).variablesOf g.context = vars := by
  unfold variablesOf contextAt? redeclare
  rw [hg]
  dsimp only
  rw [Array.getElem?_modify, if_pos rfl, Array.getElem?_eq_getElem hcontext]
  rfl

theorem variablesOf_redeclare_of_ne {c : ContextId} (hc : c ≠ g.context) :
    (t.redeclare x types functions vars).variablesOf c = t.variablesOf c := by
  unfold variablesOf contextAt? redeclare
  rw [hg]
  dsimp only
  rw [Array.getElem?_modify, if_neg fun h => hc (ContextId.index_injective h).symm]

/-- The first function with a name stays the first one if the list of functions goes on. -/
theorem findFunction_redeclare {name : String} {id : FunctionId} (hfunctions : g.functions <+: functions)
    (hid : t.findFunction x name = some id) :
    (t.redeclare x types functions vars).findFunction x name = some id := by
  obtain ⟨more, rfl⟩ := hfunctions
  unfold findFunction at hid ⊢
  rw [hg, Option.bind_some] at hid
  rw [globalAt?_redeclare_self hg, Option.bind_some]
  dsimp only
  rw [List.find?_append]
  exact congrArg (Option.or · _) hid

end Redeclare

/-! ### Importing what is there -/

/-- **What is there is not imported again.** -/
theorem importGlobal_of_subset (hg : t.globalAt? x = some g) (hs : t.globalAt? source = some s)
    (htypes : ∀ id ∈ s.declaredTypes, ∀ info, t.typeAt? id = some info → (t.findType x info.name).isSome)
    (hfunctions : s.functions ⊆ g.functions) (hvars : t.variablesOf s.context ⊆ t.variablesOf g.context) :
    t.importGlobal x source = t := by
  have hfold : s.declaredTypes.foldl (importType x) t = t := by
    generalize s.declaredTypes = ids at htypes
    induction ids with
    | nil => rfl
    | cons id ids ih =>
      obtain ⟨hid, hids⟩ := List.forall_mem_cons.mp htypes
      have hfirst : importType x t id = t := by
        unfold importType
        split
        · rfl
        · next info hinfo => rw [if_pos (hid info hinfo)]
      rw [List.foldl_cons, hfirst]
      exact ih hids
  have hglobal : (t.modifyGlobal x fun g => { g with functions := s.functions.foldl appendNew g.functions }) = t := by
    refine modifyGlobal_eq_self hg ?_
    rw [foldl_appendNew_of_subset hfunctions]
  have hcontext : (t.modifyContext g.context fun c =>
      { c with vars := (t.variablesOf s.context).foldl appendNew c.vars }) = t := by
    unfold modifyContext
    rw [modify_eq_self fun c hc => ?_]
    have hlist : t.variablesOf g.context = c.vars := by
      unfold variablesOf contextAt?
      rw [hc]
      rfl
    rw [hlist] at hvars
    rw [foldl_appendNew_of_subset hvars]
  unfold importGlobal
  rw [hs]
  dsimp only
  rw [hfold, hglobal, hg]
  exact hcontext

theorem importGlobal_self (hg : t.globalAt? x = some g) : t.importGlobal x x = t := by
  refine importGlobal_of_subset hg hg (fun id hid info hinfo => ?_) (List.Subset.refl _) (List.Subset.refl _)
  exact isSome_findType_iff.mpr ⟨g, hg, id, hid, info, hinfo, rfl⟩

theorem importGlobal_importGlobal (hc : t.Closed) (hg : t.globalAt? x = some g) (hs : t.globalAt? source = some s) :
    (t.importGlobal x source).importGlobal x source = t.importGlobal x source := by
  by_cases hne : source = x
  · subst hne
    rw [importGlobal_self hg, importGlobal_self hg]
  have hx : t.HasGlobal x := (Array.getElem?_eq_some_iff.mp hg).1
  obtain ⟨types, heq⟩ := exists_importGlobal hg hs
  have hg' := globalAt?_redeclare_self hg types (s.functions.foldl appendNew g.functions)
    ((t.variablesOf s.context).foldl appendNew (t.variablesOf g.context))
  have hs' := (t.globalAt?_redeclare_of_ne types (s.functions.foldl appendNew g.functions)
    ((t.variablesOf s.context).foldl appendNew (t.variablesOf g.context)) hne).trans hs
  rw [← heq] at hg' hs'
  refine importGlobal_of_subset hg' hs' (fun id hid info hinfo => ?_) (Scopes.subset_foldl_appendNew _ _).2 ?_
  · have hold : t.typeAt? id = some info := by
      rw [heq] at hinfo
      exact hinfo
    exact isSome_findType_importGlobal hx (isSome_findType_iff.mpr ⟨s, hs, id, hid, info, hold, rfl⟩)
  · -- either the outermost contexts are different, or their variables are the same
    by_cases hcontext : s.context = g.context
    · rw [hcontext]
      exact List.Subset.refl _
    · rw [heq, variablesOf_redeclare_of_ne hg _ _ _ hcontext,
        variablesOf_redeclare_self hg _ _ _ (hc.global_within hg).context]
      exact (Scopes.subset_foldl_appendNew _ _).2

/-! ### Imported programs -/

/-- **What it is to import a program**: the table `t'` after `x` has imported `source`. -/
structure Imports (t : Table) (x source : GlobalId) (t' : Table) : Prop where
  /-- What was found by a name is found by it. -/
  findType : ∀ name id, t.findType x name = some id → t'.findType x name = some id
  findFunction : ∀ name id, t.findFunction x name = some id → t'.findFunction x name = some id
  /-- The names of all imported types are found. -/
  types : ∀ name ∈ t.typeNames source, (t'.findType x name).isSome
  /-- What is imported is listed as often as before, or once if it was absent. Nothing else is added. -/
  functions : ∀ id, (t'.scopes.functions x).count id = if id ∈ t.scopes.functions source
    then max 1 ((t.scopes.functions x).count id) else (t.scopes.functions x).count id
  vars : ∀ id, (t'.scopes.outerVars x).count id = if id ∈ t.scopes.outerVars source
    then max 1 ((t.scopes.outerVars x).count id) else (t.scopes.outerVars x).count id
  /-- The rest of the table stays as it is. -/
  changes : ∃ types functions vars, t' = t.redeclare x types functions vars
  /-- There is nothing left to import. -/
  again : t'.importGlobal x source = t'

theorem functions_of_globalAt? (hg : t.globalAt? x = some g) : t.scopes.functions x = g.functions := by
  unfold scopes
  dsimp only
  rw [hg]
  rfl

theorem outerVars_of_globalAt? (hg : t.globalAt? x = some g) : t.scopes.outerVars x = t.variablesOf g.context := by
  unfold Scopes.outerVars scopes
  dsimp only
  rw [hg]
  rfl

/-- **Importing a program** into a program of a reachable table. A program has nothing to import from itself. -/
theorem imports_importGlobal (t : Table) (h : t.Reachable) (x source : GlobalId) (hx : t.HasGlobal x)
    (hsource : t.HasGlobal source) :
    t.Imports x source (t.importGlobal x source) ∧ t.importGlobal x x = t := by
  have hc := h.closed
  have hg : t.globalAt? x = some t.globals[x.index] := Array.getElem?_eq_getElem hx
  have hs : t.globalAt? source = some t.globals[source.index] := Array.getElem?_eq_getElem hsource
  obtain ⟨types, heq⟩ := exists_importGlobal hg hs
  obtain ⟨names, hadds⟩ := addsTypes_importGlobal hc x source
  refine ⟨⟨fun name id => hadds.found, fun name id hid => ?_, fun name hname => ?_, fun id => ?_, fun id => ?_,
    ⟨_, _, _, heq⟩, importGlobal_importGlobal hc hg hs⟩, importGlobal_self hg⟩
  · rw [heq]
    exact findFunction_redeclare hg _ _ _ (isPrefix_foldl_appendNew _ _) hid
  · exact isSome_findType_importGlobal hx (hc.isSome_findType_iff.mpr hname)
  · rw [heq, functions_of_globalAt? (globalAt?_redeclare_self hg _ _ _), functions_of_globalAt? hg,
      functions_of_globalAt? hs]
    exact count_foldl_appendNew _ _ id
  · rw [heq, outerVars_of_globalAt? (globalAt?_redeclare_self hg _ _ _), outerVars_of_globalAt? hg,
      outerVars_of_globalAt? hs, variablesOf_redeclare_self hg _ _ _ (hc.global_within hg).context]
    exact count_foldl_appendNew _ _ id

/-- Two programs with a type of one name each and with a variable that both list, the first one twice. -/
def sharingPrograms : Table :=
  let t := (({} : Table).createGlobal default).2
  let t := (t.createGlobal default).2
  let t := (t.addType ⟨0⟩ "T").2
  let t := (t.addType ⟨1⟩ "T").2
  let t := (t.addFunction ⟨1⟩ ⟨1⟩ "f" none).2
  let t := (t.createVariable ⟨0⟩ "a" none).2
  let t := t.addVariable ⟨0⟩ ⟨0⟩
  let t := t.addVariable ⟨0⟩ ⟨0⟩
  t.addVariable ⟨1⟩ ⟨0⟩

theorem reachable_sharingPrograms : sharingPrograms.Reachable := by
  unfold sharingPrograms
  refine Reachable.step ?_ (.declare (.addVariable (by decide) (by decide)))
  refine Reachable.step ?_ (.declare (.addVariable (by decide) (by decide)))
  refine Reachable.step ?_ (.declare (.addVariable (by decide) (by decide)))
  refine Reachable.step ?_ (.declare (.createVariable "a" none (by decide)))
  refine Reachable.step ?_ (.declare (.addFunction "f" none (by decide) (by decide)))
  refine Reachable.step ?_ (.declare (.addType "T" (by decide)))
  refine Reachable.step ?_ (.declare (.addType "T" (by decide)))
  exact (Reachable.createGlobal .refl default).createGlobal default

theorem imports_importGlobal_sharingPrograms : sharingPrograms.Reachable ∧ sharingPrograms.HasGlobal ⟨0⟩ ∧
    sharingPrograms.HasGlobal ⟨1⟩ ∧ sharingPrograms.Imports ⟨0⟩ ⟨1⟩ (sharingPrograms.importGlobal ⟨0⟩ ⟨1⟩) ∧
    (sharingPrograms.importGlobal ⟨0⟩ ⟨1⟩).scopes.functions ⟨0⟩ = [⟨0⟩] ∧
    (sharingPrograms.importGlobal ⟨0⟩ ⟨1⟩).scopes.outerVars ⟨0⟩ = [⟨0⟩, ⟨0⟩] := by
  have hx : sharingPrograms.HasGlobal ⟨0⟩ := by decide
  have hsource : sharingPrograms.HasGlobal ⟨1⟩ := by decide
  exact ⟨reachable_sharingPrograms, hx, hsource,
    (imports_importGlobal sharingPrograms reachable_sharingPrograms ⟨0⟩ ⟨1⟩ hx hsource).1, by decide, by decide⟩

end Table

end Cg

end ShaderAssist

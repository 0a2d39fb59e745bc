import ShaderAssist.Proofs.Cg.Nesting
import ShaderAssist.Proofs.Cg.Visible

/-!
# Visible variables in order

The declarations that are visible in a context are read from the outermost context inwards (`Table.reading`). The
list of visible variables has an entry for every name of that reading, and the place and the value of an entry come
from different declarations: its place is that of the first declaration of the name, and the variable is the last one
(`Table.ListsVisible`). So an inner variable stands where the outer one with its name would stand.
-/

namespace ShaderAssist

namespace Cg

namespace Table

variable {t : Table} {context : ContextId} {walk : List ContextId} {v : VariableId}

/-- The declarations of the contexts of a walk outwards, read from the outermost one to the first one. -/
def reading (t : Table) (walk : List ContextId) : List VariableId :=
  walk.reverse.flatMap t.variablesOf

/-- **Lists of visible variables** for the contexts of a walk outwards. -/
structure ListsVisible (t : Table) (walk : List ContextId) (shown : List VariableId) : Prop where
  /-- All are variables of the table, and no two of them have the same name. -/
  named : ∀ v ∈ shown, ∃ name, t.nameOf? v = some name
  nodup : (shown.map t.nameOf?).Nodup
  /-- There is one for each name that a context of the walk declares, -/
  mem_iff : ∀ name, some name ∈ shown.map t.nameOf? ↔ ∃ k ∈ walk, t.Declares name k
  /-- and names that are declared first earlier stand before those that are declared first later. -/
  ordered : (shown.map t.nameOf?).Pairwise fun a b =>
    ((t.reading walk).map t.nameOf?).idxOf a < ((t.reading walk).map t.nameOf?).idxOf b
  /-- A variable is the last declaration of its name, -/
  last : ∀ v ∈ shown, ∃ before after, t.reading walk = before ++ v :: after ∧ ∀ u ∈ after, t.nameOf? u ≠ t.nameOf? v
  /-- so it is declared in the innermost context that declares the name. -/
  innermost : ∀ v ∈ shown, ∃ inner k outer, walk = inner ++ k :: outer ∧ v ∈ t.variablesOf k ∧
    ∀ j ∈ inner, ∀ u ∈ t.variablesOf j, t.nameOf? u ≠ t.nameOf? v

/-! ### The order of names -/

theorem mem_foldl_appendNew_nil_iff {α : Type} [DecidableEq α] {x : α} {ys : List α} :
    x ∈ ys.foldl appendNew [] ↔ x ∈ ys := by
  constructor
  · intro hx
    rcases mem_foldl_appendNew ys hx with hx | hx
    · exact absurd hx List.not_mem_nil
    · exact hx
  · intro hx
    exact (Scopes.subset_foldl_appendNew ys []).2 hx

/-- Elements that are appended unless they are there stand in the order in which they come first. -/
theorem pairwise_idxOf_foldl_appendNew {α : Type} [DecidableEq α] [BEq α] [LawfulBEq α] (ys : List α) :
    (ys.foldl appendNew []).Pairwise fun a b => ys.idxOf a < ys.idxOf b := by
  induction ys using List.reverseRecOn with
  | nil => exact .nil
  | append_singleton ys y ih =>
    -- what was there keeps its first place, and a new element has the last one
    have hkeep : (ys.foldl appendNew []).Pairwise fun a b => (ys ++ [y]).idxOf a < (ys ++ [y]).idxOf b := by
      refine ih.imp_of_mem fun ha hb hab => ?_
      rwa [List.idxOf_append_of_mem (mem_foldl_appendNew_nil_iff.mp ha),
        List.idxOf_append_of_mem (mem_foldl_appendNew_nil_iff.mp hb)]
    rw [List.foldl_append, List.foldl_cons, List.foldl_nil, appendNew]
    split_ifs with hy
    · exact hkeep
    · rw [mem_foldl_appendNew_nil_iff] at hy
      refine List.pairwise_append.mpr ⟨hkeep, List.pairwise_singleton _ _, fun a ha b hb => ?_⟩
      obtain rfl := List.mem_singleton.mp hb
      rw [mem_foldl_appendNew_nil_iff] at ha
      rw [List.idxOf_append_of_mem ha, List.idxOf_append_of_notMem hy]
      exact Nat.lt_of_lt_of_le (List.idxOf_lt_length_of_mem ha) (Nat.le_add_right _ _)

theorem map_nameOf?_foldl_declare (ids shown : List VariableId) :
    (ids.foldl t.declare shown).map t.nameOf? = (ids.map t.nameOf?).foldl appendNew (shown.map t.nameOf?) := by
  induction ids generalizing shown with
  | nil => rfl
  | cons id ids ih => rw [List.foldl_cons, ih, map_nameOf?_declare, List.map_cons, List.foldl_cons]

/-- The names of the visible variables are those of the reading, each where it comes first. -/
theorem map_nameOf?_visibleVariables (t : Table) (context : ContextId) :
    (t.visibleVariables context).map t.nameOf? =
      ((t.reading (t.chain context)).map t.nameOf?).foldl appendNew [] :=
  map_nameOf?_foldl_declare _ []

/-! ### Variables of closed tables -/

theorem mem_reading_iff : v ∈ t.reading walk ↔ ∃ k ∈ walk, v ∈ t.variablesOf k := by
  unfold reading
  rw [List.mem_flatMap]
  simp only [List.mem_reverse]

/-- The variables of a context are variables of the table, so they have names. -/
theorem Closed.exists_nameOf? (h : t.Closed) (hv : v ∈ t.variablesOf context) : ∃ name, t.nameOf? v = some name := by
  unfold variablesOf at hv
  rcases hc : t.contextAt? context with _ | c
  · rw [hc] at hv
    exact absurd hv List.not_mem_nil
  · rw [hc] at hv
    have hvar : t.HasVariable v := (h.contexts c (Array.mem_of_getElem? hc)).vars v hv
    exact ⟨t.vars[v.index].name, congrArg (Option.map Variable.name) (Array.getElem?_eq_getElem hvar)⟩

theorem some_mem_map_reading_iff {name : String} :
    some name ∈ (t.reading walk).map t.nameOf? ↔ ∃ k ∈ walk, t.Declares name k := by
  constructor
  · intro h
    obtain ⟨v, hv, hname⟩ := List.mem_map.mp h
    obtain ⟨k, hk, hv⟩ := mem_reading_iff.mp hv
    exact ⟨k, hk, v, hv, variableNamed_iff.mpr hname⟩
  · rintro ⟨k, hk, v, hv, hname⟩
    exact List.mem_map.mpr ⟨v, mem_reading_iff.mpr ⟨k, hk, hv⟩, variableNamed_iff.mp hname⟩

/-! ### The variable of an entry -/

theorem nodup_visibleVariables (t : Table) (context : ContextId) :
    ((t.visibleVariables context).map t.nameOf?).Nodup :=
  nodup_foldl_declare _ List.nodup_nil

/-- A visible variable is the last one with its name in the reading. -/
theorem find?_reverse_reading {name : String} (hv : v ∈ t.visibleVariables context) (hname : t.variableNamed name v) :
    (t.reading (t.chain context)).reverse.find? (t.variableNamed name) = some v := by
  have hfind := (find?_eq_some_iff_of_nodup (t.nodup_visibleVariables context)).mpr ⟨hv, hname⟩
  unfold visibleVariables at hfind
  rwa [find?_foldl_declare, List.find?_nil, Option.or_none] at hfind

theorem listsVisible_visibleVariables (h : t.Closed) (context : ContextId) :
    t.ListsVisible (t.chain context) (t.visibleVariables context) := by
  have hnames := t.map_nameOf?_visibleVariables context
  have hnamed : ∀ v ∈ t.visibleVariables context, ∃ name, t.nameOf? v = some name := by
    intro v hv
    have hmem : t.nameOf? v ∈ (t.visibleVariables context).map t.nameOf? := List.mem_map_of_mem hv
    rw [hnames, mem_foldl_appendNew_nil_iff] at hmem
    obtain ⟨u, hu, huv⟩ := List.mem_map.mp hmem
    obtain ⟨k, -, hu⟩ := mem_reading_iff.mp hu
    rw [← huv]
    exact h.exists_nameOf? hu
  refine ⟨hnamed, t.nodup_visibleVariables context, fun name => ?_, ?_, fun v hv => ?_, fun v hv => ?_⟩
  · rw [hnames, mem_foldl_appendNew_nil_iff, some_mem_map_reading_iff]
  · rw [hnames]
    exact pairwise_idxOf_foldl_appendNew ((t.reading (t.chain context)).map t.nameOf?)
  · obtain ⟨name, hname⟩ := hnamed v hv
    have hfind := find?_reverse_reading hv (variableNamed_iff.mpr hname)
    obtain ⟨-, before, after, heq, hafter⟩ := find?_reverse_eq_some_iff.mp hfind
    refine ⟨before, after, heq, fun u hu hsame => hafter u hu ?_⟩
    rw [variableNamed_iff, hsame, hname]
  · obtain ⟨name, hname⟩ := hnamed v hv
    obtain ⟨k, ⟨-, inner, outer, hchain, hinner⟩, -, before, after, hvars, -⟩ :=
      mem_visibleVariables_iff.mp ⟨hv, variableNamed_iff.mpr hname⟩
    refine ⟨inner, k, outer, hchain, ?_, fun j hj u hu hsame => hinner j hj ⟨u, hu, ?_⟩⟩
    · rw [hvars]
      exact List.mem_append_right _ List.mem_cons_self
    · rw [variableNamed_iff, hsame, hname]

/-- **The visible variables of a context** of a reachable table are listed for the walk from it to the outermost
context of its program. -/
theorem visibleVariables_inOrder (t : Table) (h : t.Reachable) (context : ContextId) (hcontext : t.HasContext context) :
    t.WalksOut context (t.chain context) ∧ t.ListsVisible (t.chain context) (t.visibleVariables context) := by
  obtain ⟨hclosed, hnested⟩ := h.induct nested_empty fun hc h hop => hop.nested hc h
  exact ⟨walksOut_chainUpTo hclosed hnested t.contexts.size hcontext hcontext,
    listsVisible_visibleVariables hclosed context⟩

/-- A program that declares `a`, `b` and `a` again. -/
def outerNames : Table :=
  let t := (({} : Table).createGlobal default).2
  let t := (t.addType ⟨0⟩ "T").2
  let t := (t.createVariable ⟨0⟩ "a" none).2
  let t := t.addVariable ⟨0⟩ ⟨0⟩
  let t := (t.createVariable ⟨0⟩ "b" none).2
  let t := t.addVariable ⟨0⟩ ⟨1⟩
  let t := (t.createVariable ⟨0⟩ "a" none).2
  t.addVariable ⟨0⟩ ⟨2⟩

/-- The program with a block in it that declares `c` and `b`. -/
def innerNames : Table :=
  let t := (outerNames.createContext ⟨0⟩).2
  let t := (t.createVariable ⟨0⟩ "c" none).2
  let t := t.addVariable ⟨1⟩ ⟨3⟩
  let t := (t.createVariable ⟨0⟩ "b" none).2
  t.addVariable ⟨1⟩ ⟨4⟩

theorem reachable_outerNames : outerNames.Reachable := by
  unfold outerNames
  refine Reachable.step ?_ (.declare (.addVariable (by decide) (by decide)))
  refine Reachable.step ?_ (.declare (.createVariable "a" none (by decide)))
  refine Reachable.step ?_ (.declare (.addVariable (by decide) (by decide)))
  refine Reachable.step ?_ (.declare (.createVariable "b" none (by decide)))
  refine Reachable.step ?_ (.declare (.addVariable (by decide) (by decide)))
  refine Reachable.step ?_ (.declare (.createVariable "a" none (by decide)))
  refine Reachable.step ?_ (.declare (.addType "T" (by decide)))
  exact Reachable.createGlobal .refl default

theorem reachable_innerNames : innerNames.Reachable := by
  refine Reachable.step ?_ (.declare (.addVariable (by decide) (by decide)))
  refine Reachable.step ?_ (.declare (.createVariable "b" none (by decide)))
  refine Reachable.step ?_ (.declare (.addVariable (by decide) (by decide)))
  refine Reachable.step ?_ (.declare (.createVariable "c" none (by decide)))
  refine Reachable.step ?_ (.declare (.createContext (by decide)))
  exact reachable_outerNames

/-- The second `a` stands in the place of the first one, the `b` of the block in that of the outer one, and `c` behind
them. -/
theorem visibleVariables_inOrder_innerNames : innerNames.HasContext ⟨1⟩ ∧
    innerNames.WalksOut ⟨1⟩ [⟨1⟩, ⟨0⟩] ∧ innerNames.ListsVisible [⟨1⟩, ⟨0⟩] [⟨2⟩, ⟨4⟩, ⟨3⟩] := by
  have hchain : innerNames.chain ⟨1⟩ = [⟨1⟩, ⟨0⟩] := by decide
  have hvisible : innerNames.visibleVariables ⟨1⟩ = [⟨2⟩, ⟨4⟩, ⟨3⟩] := by decide
  obtain ⟨hwalk, hlists⟩ := visibleVariables_inOrder innerNames reachable_innerNames ⟨1⟩ (by decide)
  rw [hchain] at hwalk hlists
  rw [hvisible] at hlists
  exact ⟨by decide, hwalk, hlists⟩

end Table

end Cg

end ShaderAssist

import Mathlib.Data.List.Nodup
import ShaderAssist.Cg.Lookup

/-!
# The variable of a name

Two questions tell what a name means in a context: `findVariable` gives its variable, and `visibleVariables`
lists one variable for every name. Both look at the nearest context that declares the name (`IsNearest`).
They differ inside that context: the one takes the first declaration of the name (`findVariable_eq_some_iff`),
the other the last one (`mem_visibleVariables_iff`). So they agree exactly on the names whose nearest context
declares them once (`lookups_agree_iff`), and a context that declares a name twice tells them apart
(`lookups_differ`).
-/

namespace ShaderAssist

namespace Cg

namespace Table

variable {t : Table}

/-! ### Declarations in the place of others -/

/-- The name of a variable, if there is such a variable. -/
def nameOf? (t : Table) (id : VariableId) : Option String :=
  (t.variableAt? id).map Variable.name

theorem variableNamed_iff {name : String} {id : VariableId} :
    t.variableNamed name id ↔ t.nameOf? id = some name := by
  unfold variableNamed nameOf?
  cases t.variableAt? id <;> simp

theorem declare_cons_of_eq {first id : VariableId} (h : t.nameOf? first = t.nameOf? id)
    (rest : List VariableId) : t.declare (first :: rest) id = id :: rest :=
  if_pos h

theorem declare_cons_of_ne {first id : VariableId} (h : t.nameOf? first ≠ t.nameOf? id)
    (rest : List VariableId) : t.declare (first :: rest) id = first :: t.declare rest id :=
  if_neg h

/-- A declaration is what its name means from then on; the other names keep their meaning. -/
theorem find?_declare (name : String) (id : VariableId) (shown : List VariableId) :
    (t.declare shown id).find? (t.variableNamed name) =
      if t.variableNamed name id then some id else shown.find? (t.variableNamed name) := by
  induction shown with
  | nil => exact List.find?_singleton
  | cons first rest ih =>
    by_cases hsame : t.nameOf? first = t.nameOf? id
    · have hfirst : t.variableNamed name first = t.variableNamed name id := by
        rw [Bool.eq_iff_iff, variableNamed_iff, variableNamed_iff, hsame]
      rw [declare_cons_of_eq hsame, List.find?_cons, List.find?_cons, hfirst]
      cases t.variableNamed name id <;> rfl
    · rw [declare_cons_of_ne hsame, List.find?_cons, List.find?_cons, ih]
      split_ifs with hname
      · have hfirst : t.variableNamed name first = false := by
          rw [variableNamed_iff] at hname
          rw [← Bool.not_eq_true, variableNamed_iff, ← hname]
          exact hsame
        rw [hfirst]
      · rfl

/-- After some declarations a name means the last one of them that has the name. -/
theorem find?_foldl_declare (name : String) (ids shown : List VariableId) :
    (ids.foldl t.declare shown).find? (t.variableNamed name) =
      (ids.reverse.find? (t.variableNamed name)).or (shown.find? (t.variableNamed name)) := by
  induction ids generalizing shown with
  | nil => rfl
  | cons id ids ih =>
    rw [List.foldl_cons, ih, find?_declare, List.reverse_cons, List.find?_append, Option.or_assoc,
      List.find?_singleton]
    split_ifs <;> rfl

theorem appendNew_cons_of_ne {α : Type} [DecidableEq α] {x y : α} (h : y ≠ x) (xs : List α) :
    appendNew (y :: xs) x = y :: appendNew xs x := by
  unfold appendNew
  by_cases hx : x ∈ xs
  · rw [if_pos hx, if_pos (List.mem_cons_of_mem y hx)]
  · rw [if_neg hx, if_neg (List.not_mem_cons_of_ne_of_not_mem h.symm hx), List.cons_append]

theorem nodup_appendNew {α : Type} [DecidableEq α] {xs : List α} (h : xs.Nodup) (x : α) :
    (appendNew xs x).Nodup := by
  unfold appendNew
  split_ifs with hx
  · exact h
  · rw [← List.concat_eq_append]
    exact h.concat hx

/-- A declaration adds its name unless it is there. -/
theorem map_nameOf?_declare (id : VariableId) (shown : List VariableId) :
    (t.declare shown id).map t.nameOf? = appendNew (shown.map t.nameOf?) (t.nameOf? id) := by
  induction shown with
  | nil => rfl
  | cons first rest ih =>
    by_cases hsame : t.nameOf? first = t.nameOf? id
    · rw [declare_cons_of_eq hsame, List.map_cons, List.map_cons, hsame]
      exact (if_pos List.mem_cons_self).symm
    · rw [declare_cons_of_ne hsame, List.map_cons, List.map_cons, ih, appendNew_cons_of_ne hsame]

theorem nodup_foldl_declare (ids : List VariableId) {shown : List VariableId}
    (h : (shown.map t.nameOf?).Nodup) : ((ids.foldl t.declare shown).map t.nameOf?).Nodup := by
  induction ids generalizing shown with
  | nil => exact h
  | cons id ids ih =>
    apply ih
    rw [map_nameOf?_declare]
    exact nodup_appendNew h _

/-- Where no two variables have the same name, a name finds the variable that has it. -/
theorem find?_eq_some_iff_of_nodup {ids : List VariableId} (h : (ids.map t.nameOf?).Nodup) {name : String}
    {v : VariableId} : ids.find? (t.variableNamed name) = some v ↔ v ∈ ids ∧ t.variableNamed name v := by
  constructor
  · intro hv
    exact ⟨List.mem_of_find?_eq_some hv, List.find?_some hv⟩
  · rintro ⟨hv, hname⟩
    obtain ⟨w, hw⟩ := Option.isSome_iff_exists.mp (List.find?_isSome.mpr ⟨v, hv, hname⟩)
    have hnames : t.nameOf? w = t.nameOf? v :=
      (variableNamed_iff.mp (List.find?_some hw)).trans (variableNamed_iff.mp hname).symm
    rw [hw, List.inj_on_of_nodup_map h (List.mem_of_find?_eq_some hw) hv hnames]

/-! ### The nearest context -/

/-- A context declares a name. -/
def Declares (t : Table) (name : String) (context : ContextId) : Prop :=
  ∃ v ∈ t.variablesOf context, t.variableNamed name v

/-- The nearest context, from a context outwards, that declares a name. -/
def IsNearest (t : Table) (context : ContextId) (name : String) (nearest : ContextId) : Prop :=
  t.Declares name nearest ∧ ∃ inner outer, t.chain context = inner ++ nearest :: outer ∧
    ∀ k ∈ inner, ¬ t.Declares name k

/-- A variable is the first declaration of a name in a context. -/
def IsFirst (t : Table) (context : ContextId) (name : String) (v : VariableId) : Prop :=
  t.variableNamed name v ∧ ∃ before after, t.variablesOf context = before ++ v :: after ∧
    ∀ u ∈ before, ¬ t.variableNamed name u

/-- A variable is the last declaration of a name in a context. -/
def IsLast (t : Table) (context : ContextId) (name : String) (v : VariableId) : Prop :=
  t.variableNamed name v ∧ ∃ before after, t.variablesOf context = before ++ v :: after ∧
    ∀ u ∈ after, ¬ t.variableNamed name u

variable {context nearest : ContextId} {name : String} {v : VariableId}

theorem find?_variablesOf_eq_some_iff :
    (t.variablesOf context).find? (t.variableNamed name) = some v ↔ t.IsFirst context name v := by
  rw [List.find?_eq_some_iff_append]
  simp [IsFirst]

/-- What is found from the back is the last one with the name. -/
theorem find?_reverse_eq_some_iff {ids : List VariableId} :
    ids.reverse.find? (t.variableNamed name) = some v ↔
      t.variableNamed name v ∧ ∃ before after, ids = before ++ v :: after ∧
        ∀ u ∈ after, ¬ t.variableNamed name u := by
  rw [List.find?_eq_some_iff_append]
  refine and_congr_right fun _ => ?_
  constructor
  · rintro ⟨after, before, h, hafter⟩
    refine ⟨before.reverse, after.reverse, ?_, fun u hu => ?_⟩
    · rw [← List.reverse_reverse ids, h]
      simp
    · simpa using hafter u (List.mem_reverse.mp hu)
  · rintro ⟨before, after, h, hafter⟩
    refine ⟨after.reverse, before.reverse, ?_, fun u hu => ?_⟩
    · rw [h]
      simp
    · simpa using hafter u (List.mem_reverse.mp hu)

theorem find?_reverse_variablesOf_eq_some_iff :
    (t.variablesOf context).reverse.find? (t.variableNamed name) = some v ↔
      t.IsLast context name v :=
  find?_reverse_eq_some_iff

/-- A search that finds something exactly in the contexts that declare a name ends in the nearest one. -/
theorem findSome?_chain_eq_some_iff (name : String) {f : ContextId → Option VariableId}
    (hf : ∀ k, f k = none ↔ ¬ t.Declares name k) :
    (t.chain context).findSome? f = some v ↔ ∃ k, t.IsNearest context name k ∧ f k = some v := by
  rw [List.findSome?_eq_some_iff]
  constructor
  · rintro ⟨inner, k, outer, hchain, hk, hinner⟩
    refine ⟨k, ⟨?_, inner, outer, hchain, fun j hj => (hf j).mp (hinner j hj)⟩, hk⟩
    by_contra hnot
    rw [(hf k).mpr hnot] at hk
    exact nomatch hk
  · rintro ⟨k, ⟨-, inner, outer, hchain, hinner⟩, hk⟩
    exact ⟨inner, k, outer, hchain, hk, fun j hj => (hf j).mpr (hinner j hj)⟩

theorem find?_variablesOf_eq_none_iff :
    (t.variablesOf context).find? (t.variableNamed name) = none ↔ ¬ t.Declares name context := by
  rw [List.find?_eq_none]
  simp [Declares]

theorem find?_reverse_variablesOf_eq_none_iff :
    (t.variablesOf context).reverse.find? (t.variableNamed name) = none ↔
      ¬ t.Declares name context := by
  rw [List.find?_eq_none]
  simp [Declares]

/-- A context that declares a name has a first and a last declaration of it. -/
theorem Declares.exists_first_last (h : t.Declares name context) :
    (∃ v, t.IsFirst context name v) ∧ ∃ v, t.IsLast context name v := by
  constructor
  · obtain ⟨v, hv⟩ := Option.ne_none_iff_exists'.mp fun hn => find?_variablesOf_eq_none_iff.mp hn h
    exact ⟨v, find?_variablesOf_eq_some_iff.mp hv⟩
  · obtain ⟨v, hv⟩ := Option.ne_none_iff_exists'.mp
      fun hn => find?_reverse_variablesOf_eq_none_iff.mp hn h
    exact ⟨v, find?_reverse_variablesOf_eq_some_iff.mp hv⟩

/-! ### The two lookups -/

/-- **The variable that a name means** is the first declaration in the nearest context. -/
theorem findVariable_eq_some_iff : t.findVariable context name = some v ↔
    ∃ k, t.IsNearest context name k ∧ t.IsFirst k name v := by
  unfold findVariable
  rw [findSome?_chain_eq_some_iff name fun _ => find?_variablesOf_eq_none_iff]
  simp only [find?_variablesOf_eq_some_iff]

/-- **The variable that is listed for a name** is the last declaration in the nearest context. -/
theorem mem_visibleVariables_iff : v ∈ t.visibleVariables context ∧ t.variableNamed name v ↔
    ∃ k, t.IsNearest context name k ∧ t.IsLast k name v := by
  have hnodup : (([] : List VariableId).map t.nameOf?).Nodup := List.nodup_nil
  unfold visibleVariables
  rw [← find?_eq_some_iff_of_nodup (nodup_foldl_declare _ hnodup), find?_foldl_declare,
    List.find?_nil, Option.or_none, List.reverse_flatMap, List.reverse_reverse, List.find?_flatMap]
  simp only [Function.comp_apply]
  rw [findSome?_chain_eq_some_iff name fun _ => find?_reverse_variablesOf_eq_none_iff]
  simp only [find?_reverse_variablesOf_eq_some_iff]

/-- **The two lookups** answer with the first and with the last declaration of a name in the nearest context
that declares it, so they agree exactly if these are the same variable. -/
theorem lookups_agree_iff (t : Table) (context : ContextId) (name : String) :
    (∀ v, (t.findVariable context name = some v ↔
          ∃ k, t.IsNearest context name k ∧ t.IsFirst k name v) ∧
        (v ∈ t.visibleVariables context ∧ t.variableNamed name v ↔
          ∃ k, t.IsNearest context name k ∧ t.IsLast k name v)) ∧
      ((∀ v, t.findVariable context name = some v ↔
          v ∈ t.visibleVariables context ∧ t.variableNamed name v) ↔
        ∀ k u v, t.IsNearest context name k → t.IsFirst k name u → t.IsLast k name v → u = v) := by
  refine ⟨fun v => ⟨findVariable_eq_some_iff, mem_visibleVariables_iff⟩, ?_⟩
  constructor
  · intro hagree k u v hk hu hv
    have hfirst := findVariable_eq_some_iff.mpr ⟨k, hk, hu⟩
    have hlast := (hagree v).mpr (mem_visibleVariables_iff.mpr ⟨k, hk, hv⟩)
    exact Option.some.inj (hfirst.symm.trans hlast)
  · intro hsame v
    rw [findVariable_eq_some_iff, mem_visibleVariables_iff]
    constructor
    · rintro ⟨k, hk, hv⟩
      obtain ⟨w, hw⟩ := hk.1.exists_first_last.2
      exact ⟨k, hk, hsame k v w hk hv hw ▸ hw⟩
    · rintro ⟨k, hk, hv⟩
      obtain ⟨u, hu⟩ := hk.1.exists_first_last.1
      exact ⟨k, hk, hsame k u v hk hu hv ▸ hu⟩

/-- A program that declares `i` twice in its outermost context, with different types. -/
def redeclaring : Table :=
  let (global, t) := ({} : Table).createGlobal { (default : Vocabulary) with types := ["int", "float"] }
  let (int, t) := t.resolveType global "int"
  let (float, t) := t.resolveType global "float"
  let (first, t) := t.createVariable int "i" none
  let t := t.addVariable ⟨0⟩ first
  let (second, t) := t.createVariable float "i" none
  t.addVariable ⟨0⟩ second

/-- **A name that is declared twice** means its first declaration, but the second one is listed. -/
theorem lookups_differ : redeclaring.findVariable ⟨0⟩ "i" = some ⟨0⟩ ∧
    redeclaring.visibleVariables ⟨0⟩ = [⟨1⟩] ∧ redeclaring.variableNamed "i" ⟨1⟩ := by
  decide +kernel

end Table

end Cg

end ShaderAssist

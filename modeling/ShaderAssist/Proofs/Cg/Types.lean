import Mathlib.Data.List.Nodup
import ShaderAssist.Cg.Lookup
import ShaderAssist.Proofs.Cg.Names
import ShaderAssist.Proofs.Cg.Reachable
import ShaderAssist.Proofs.Cg.Scopes
import ShaderAssist.Proofs.Cg.TypeShape

/-!
# Types of a table

The types that a program declares have different names. A type with components is a vector (`TypeInfo.IsVector`),
and every other type with elements a matrix (`TypeInfo.IsMatrix`); their names say so, and the types that they are
made of are found by their names in the same program.

`Table.AddsTypes` says what an operation may do to types. What was found by a name is still found by it, and what
is found besides has one of the names that the operation was about. So a vector that is declared on demand is new,
even if the name of its scalar looks like that of a vector.
-/

namespace ShaderAssist

theorem map_getElem?_modify {α β : Type} {p : α → β} {f : α → α} (h : ∀ x, p (f x) = p x) (xs : Array α)
    (i j : Nat) : (xs.modify i f)[j]?.map p = xs[j]?.map p := by
  rw [← Array.getElem?_map, map_modify_of_eq h, Array.getElem?_map]

namespace Cg

namespace Table

variable {t t' t'' : Table} {x : GlobalId} {name : String} {id : TypeId} {info : TypeInfo} {names : List String}

/-! ### Declared types -/

/-- The types that a program declares. -/
def declared (t : Table) (x : GlobalId) : List TypeId :=
  ((t.globalAt? x).map Global.declaredTypes).getD []

/-- The names of the types that a program declares. -/
def typeNames (t : Table) (x : GlobalId) : List String :=
  (t.declared x).map t.typeName

/-- The name and the type of a variable. -/
def signature? (t : Table) (id : VariableId) : Option (String × TypeId) :=
  (t.variableAt? id).map fun v => (v.name, v.type)

theorem findType_eq (t : Table) (x : GlobalId) (name : String) :
    t.findType x name = (t.declared x).find? (t.typeNamed name) := by
  unfold findType declared
  cases t.globalAt? x <;> rfl

theorem typeNamed_eq (t : Table) (name : String) (id : TypeId) :
    t.typeNamed name id = ((t.typeAt? id).map TypeInfo.name).any (· == name) := by
  rw [Option.any_map]
  rfl

theorem typeName_of_typeNamed (h : t.typeNamed name id) : t.typeName id = name := by
  unfold typeNamed at h
  unfold typeName
  cases hid : t.typeAt? id with
  | none => simp [hid] at h
  | some info => simpa [hid] using h

theorem typeName_of_findType (h : t.findType x name = some id) : t.typeName id = name := by
  rw [findType_eq] at h
  exact typeName_of_typeNamed (List.find?_some h)

theorem HasType.typeNamed_iff (h : t.HasType id) : t.typeNamed name id ↔ t.typeName id = name := by
  have hid : t.typeAt? id = some t.types[id.index] := Array.getElem?_eq_getElem h
  unfold typeNamed typeName
  rw [hid]
  simp

theorem Closed.hasType_of_mem_declared (h : t.Closed) (hid : id ∈ t.declared x) : t.HasType id := by
  obtain ⟨_, hids, hmem⟩ := mem_getD_nil_iff.mp hid
  obtain ⟨g, hg, rfl⟩ := Option.map_eq_some_iff.mp hids
  exact (h.global_within hg).declaredTypes id hmem

theorem Closed.isSome_findType_iff (h : t.Closed) : (t.findType x name).isSome ↔ name ∈ t.typeNames x := by
  rw [findType_eq, List.find?_isSome, typeNames, List.mem_map]
  refine exists_congr fun id => and_congr_right fun hid => ?_
  exact (h.hasType_of_mem_declared hid).typeNamed_iff

end Table

/-! ### Vectors and matrices -/

/-- A vector of `n` components of the type `s`. -/
structure TypeInfo.IsVector (t : Table) (info : TypeInfo) (s : TypeId) (n : Nat) : Prop where
  element : info.element = some s
  scalar : t.findType info.global (t.typeName s) = some s
  dimension : n ∈ Vocabulary.dimensions
  name : info.name = t.typeName s ++ toString n
  /-- The components come first among the members. -/
  members : (info.members.take n).map t.signature? = (Table.componentNames.take n).map fun c => some (c, s)

/-- A matrix over a scalar. -/
structure TypeInfo.IsMatrix (t : Table) (info : TypeInfo) (scalar : String) (rows columns : Nat) : Prop where
  rows_mem : rows ∈ Vocabulary.dimensions
  columns_mem : columns ∈ Vocabulary.dimensions
  name : info.name = scalar ++ toString rows ++ "x" ++ toString columns
  /-- The rows are of the type with the name of a vector. -/
  row : ∃ e, info.element = some e ∧ t.findType info.global (scalar ++ toString columns) = some e

/-- A type with components is a vector, and another type with elements is a matrix. -/
structure TypeInfo.Shaped (t : Table) (info : TypeInfo) : Prop where
  vector : info.ordered → ∃ s n, info.IsVector t s n
  matrix : ¬ info.ordered → info.element.isSome → ∃ scalar rows columns, info.IsMatrix t scalar rows columns

/-- A type that has become another one by more members. -/
structure TypeInfo.Continues (old new : TypeInfo) : Prop where
  name : new.name = old.name
  global : new.global = old.global
  ordered : new.ordered = old.ordered
  element : new.element = old.element
  members : old.members <+: new.members

theorem TypeInfo.Continues.refl (info : TypeInfo) : info.Continues info :=
  ⟨rfl, rfl, rfl, rfl, List.prefix_rfl⟩

theorem TypeInfo.Continues.trans {a b c : TypeInfo} (h : a.Continues b) (h' : b.Continues c) : a.Continues c :=
  ⟨h'.name.trans h.name, h'.global.trans h.global, h'.ordered.trans h.ordered, h'.element.trans h.element,
    h.members.trans h'.members⟩

theorem TypeInfo.shaped_plain (t : Table) (name : String) (x : GlobalId) :
    TypeInfo.Shaped t { name, global := x } :=
  ⟨fun h => absurd h Bool.false_ne_true, fun _ h => absurd h Bool.false_ne_true⟩

namespace Table

variable {t t' t'' : Table} {x : GlobalId} {name : String} {id : TypeId} {names names' : List String}

/-- **What an operation may do to types.** -/
structure AddsTypes (names : List String) (t t' : Table) : Prop where
  found : ∀ {x name id}, t.findType x name = some id → t'.findType x name = some id
  introduced : ∀ {x name}, (t'.findType x name).isSome → (t.findType x name).isSome ∨ name ∈ names
  distinct : (∀ x, (t.typeNames x).Nodup) → ∀ x, (t'.typeNames x).Nodup
  signature : ∀ {id s}, t.signature? id = some s → t'.signature? id = some s
  types : ∀ {id new}, t'.typeAt? id = some new →
    (∃ old, t.typeAt? id = some old ∧ old.Continues new) ∨ new.Shaped t'

theorem length_take_componentNames {n : Nat} (h : n ∈ Vocabulary.dimensions) :
    (componentNames.take n).length = n := by
  revert n
  decide

theorem le_length_members {info : TypeInfo} {s : TypeId} {n : Nat} (h : info.IsVector t s n) :
    n ≤ info.members.length := by
  have := congrArg List.length h.members
  rw [List.length_map, List.length_map, length_take_componentNames h.dimension, List.length_take] at this
  omega

namespace AddsTypes

theorem isVector (h : AddsTypes names t t') {old new : TypeInfo} (hold : old.Continues new) {s : TypeId}
    {n : Nat} (hv : old.IsVector t s n) : new.IsVector t' s n := by
  have hfound := h.found hv.scalar
  have hname := typeName_of_findType hfound
  have htake : new.members.take n = old.members.take n := by
    obtain ⟨more, hmore⟩ := hold.members
    rw [← hmore, List.take_append_of_le_length (le_length_members hv)]
  refine ⟨hold.element.trans hv.element, ?_, hv.dimension, ?_, ?_⟩
  · rw [hold.global, hname]
    exact hfound
  · rw [hold.name, hname]
    exact hv.name
  · rw [htake, ← hv.members]
    refine List.map_congr_left fun id hid => ?_
    -- every component has a signature, which it keeps
    have hmem : t.signature? id ∈ (componentNames.take n).map fun c => some (c, s) := by
      rw [← hv.members]
      exact List.mem_map_of_mem hid
    obtain ⟨c, -, hc⟩ := List.mem_map.mp hmem
    rw [← hc]
    exact h.signature hc.symm

theorem isMatrix (h : AddsTypes names t t') {old new : TypeInfo} (hold : old.Continues new) {scalar : String}
    {rows columns : Nat} (hm : old.IsMatrix t scalar rows columns) :
    new.IsMatrix t' scalar rows columns := by
  obtain ⟨e, helement, hrow⟩ := hm.row
  refine ⟨hm.rows_mem, hm.columns_mem, hold.name.trans hm.name, e, hold.element.trans helement, ?_⟩
  rw [hold.global]
  exact h.found hrow

/-- A type that goes on keeps its shape. -/
theorem shaped (h : AddsTypes names t t') {old new : TypeInfo} (hold : old.Continues new)
    (hs : old.Shaped t) : new.Shaped t' := by
  constructor
  · intro hordered
    rw [hold.ordered] at hordered
    obtain ⟨s, n, hv⟩ := hs.vector hordered
    exact ⟨s, n, h.isVector hold hv⟩
  · intro hordered helement
    rw [hold.ordered] at hordered
    rw [hold.element] at helement
    obtain ⟨scalar, rows, columns, hm⟩ := hs.matrix hordered helement
    exact ⟨scalar, rows, columns, h.isMatrix hold hm⟩

theorem trans (h : AddsTypes names t t') (h' : AddsTypes names' t' t'') : AddsTypes (names ++ names') t t'' where
  found hid := h'.found (h.found hid)
  introduced hname := by
    rcases h'.introduced hname with hname | hname
    · exact (h.introduced hname).imp_right (List.mem_append_left _)
    · exact Or.inr (List.mem_append_right _ hname)
  distinct hd := h'.distinct (h.distinct hd)
  signature hs := h'.signature (h.signature hs)
  types hnew := by
    rcases h'.types hnew with ⟨mid, hmid, hcontinues⟩ | hshaped
    · rcases h.types hmid with ⟨old, hold, hcontinues'⟩ | hshaped
      · exact Or.inl ⟨old, hold, hcontinues'.trans hcontinues⟩
      · exact Or.inr (h'.shaped hcontinues hshaped)
    · exact Or.inr hshaped

theorem mono (h : AddsTypes names t t') (hsub : names ⊆ names') : AddsTypes names' t t' :=
  { h with introduced := fun hname => (h.introduced hname).imp_right fun hmem => hsub hmem }

/-- A name that is not among the new ones is not found if it was not found before. -/
theorem fresh (h : AddsTypes names t t') (hnone : t.findType x name = none) (hname : name ∉ names) :
    t'.findType x name = none := by
  rw [← Option.not_isSome_iff_eq_none]
  intro hsome
  rcases h.introduced hsome with hold | hmem
  · rw [hnone] at hold
    exact Bool.false_ne_true hold
  · exact hname hmem

end AddsTypes

/-! ### Operations that declare no types -/

theorem findType_congr (hdeclared : ∀ x, t'.declared x = t.declared x)
    (hnamed : ∀ id ∈ t.declared x, t'.typeNamed name id = t.typeNamed name id) :
    t'.findType x name = t.findType x name := by
  rw [findType_eq, findType_eq, hdeclared, ← List.head?_filter, ← List.head?_filter, List.filter_congr hnamed]

/-- The same declarations, with the same names. -/
theorem addsTypes_of_names (hdeclared : ∀ x, t'.declared x = t.declared x)
    (htypes : ∀ x, ∀ id ∈ t.declared x, (t'.typeAt? id).map TypeInfo.name = (t.typeAt? id).map TypeInfo.name)
    (hsignature : ∀ {id s}, t.signature? id = some s → t'.signature? id = some s)
    (hshapes : ∀ {id new}, t'.typeAt? id = some new →
      (∃ old, t.typeAt? id = some old ∧ old.Continues new) ∨ new.Shaped t') : AddsTypes [] t t' := by
  have hfind : ∀ x name, t'.findType x name = t.findType x name := by
    intro x name
    refine findType_congr hdeclared fun id hid => ?_
    rw [typeNamed_eq, typeNamed_eq, htypes x id hid]
  refine ⟨fun h => (hfind _ _).trans h, fun h => Or.inl (hfind _ _ ▸ h), fun hd x => ?_, hsignature, hshapes⟩
  have hnames : t'.typeNames x = t.typeNames x := by
    unfold typeNames
    rw [hdeclared]
    refine List.map_congr_left fun id hid => ?_
    unfold typeName
    rw [htypes x id hid]
  rw [hnames]
  exact hd x

/-- The same types. -/
theorem addsTypes_of_types (htypes : t'.types = t.types) (hdeclared : ∀ x, t'.declared x = t.declared x)
    (hsignature : ∀ {id s}, t.signature? id = some s → t'.signature? id = some s) : AddsTypes [] t t' := by
  have htypeAt : ∀ id, t'.typeAt? id = t.typeAt? id := fun id => by
    unfold typeAt?
    rw [htypes]
  refine addsTypes_of_names hdeclared (fun x id _ => by rw [htypeAt]) hsignature fun {id new} hnew => ?_
  rw [htypeAt] at hnew
  exact Or.inl ⟨new, hnew, .refl new⟩

theorem AddsTypes.refl (t : Table) : AddsTypes [] t t :=
  addsTypes_of_types rfl (fun _ => rfl) fun h => h

theorem signature?_push {v : Variable} {id : VariableId} {s : String × TypeId} (h : t.signature? id = some s) :
    signature? { t with vars := t.vars.push v } id = some s := by
  obtain ⟨old, hold, rfl⟩ := Option.map_eq_some_iff.mp h
  exact congrArg (Option.map _) (getElem?_push_of_eq_some hold v)

theorem signature?_modifyVariable {f : Variable → Variable} (hname : ∀ v, (f v).name = v.name)
    (htype : ∀ v, (f v).type = v.type) (id j : VariableId) :
    (t.modifyVariable id f).signature? j = t.signature? j :=
  map_getElem?_modify (p := fun v : Variable => (v.name, v.type)) (f := f)
    (fun v => congrArg₂ Prod.mk (hname v) (htype v)) t.vars id.index j.index

theorem declared_modifyGlobal {f : Global → Global} (hf : ∀ g, (f g).declaredTypes = g.declaredTypes)
    (x y : GlobalId) : (t.modifyGlobal x f).declared y = t.declared y :=
  congrArg (Option.getD · []) (map_getElem?_modify hf t.globals x.index y.index)

theorem addsTypes_createVariable (t : Table) (type : TypeId) (name : String) (semantics : Option String) :
    AddsTypes [] t (t.createVariable type name semantics).2 :=
  addsTypes_of_types rfl (fun _ => rfl) signature?_push

theorem addsTypes_addVariable (t : Table) (context : ContextId) (id : VariableId) :
    AddsTypes [] t (t.addVariable context id) := by
  refine addsTypes_of_types rfl (fun _ => rfl) fun {j s} h => ?_
  have hsignature := signature?_modifyVariable (f := fun v => { v with context := some context })
    (t := t.modifyContext context fun c => { c with vars := c.vars ++ [id] }) (fun _ => rfl) (fun _ => rfl) id j
  exact hsignature.trans h

theorem addsTypes_modifyFunction (t : Table) (id : FunctionId) (f : Function → Function) :
    AddsTypes [] t (t.modifyFunction id f) :=
  addsTypes_of_types rfl (fun _ => rfl) fun h => h

theorem addsTypes_foldl {α : Type} {f : Table → α → Table} (h : ∀ (t : Table) a, AddsTypes [] t (f t a))
    (as : List α) (t : Table) : AddsTypes [] t (as.foldl f t) := by
  induction as generalizing t with
  | nil => exact .refl t
  | cons a as ih => exact (h t a).trans (ih (f t a))

/-! ### Types that are changed or added -/

theorem findType_modifyType {f : TypeInfo → TypeInfo} (hf : ∀ info, (f info).name = info.name) (id : TypeId)
    (x : GlobalId) (name : String) : (t.modifyType id f).findType x name = t.findType x name := by
  refine findType_congr (fun _ => rfl) fun j _ => ?_
  rw [typeNamed_eq, typeNamed_eq]
  exact congrArg (Option.any (· == name)) (map_getElem?_modify hf t.types id.index j.index)

/-- One type is changed: it goes on, or has a shape afterwards. -/
theorem addsTypes_modifyType {f : TypeInfo → TypeInfo} (hf : ∀ info, (f info).name = info.name) {id : TypeId}
    (hid : ∀ old, t.typeAt? id = some old → old.Continues (f old) ∨ (f old).Shaped (t.modifyType id f)) :
    AddsTypes [] t (t.modifyType id f) := by
  refine addsTypes_of_names (fun _ => rfl) (fun _ j _ => map_getElem?_modify hf t.types id.index j.index)
    (fun h => h) fun {j new} hnew => ?_
  unfold typeAt? modifyType at hnew
  rw [Array.getElem?_modify] at hnew
  split_ifs at hnew with hj
  · obtain ⟨old, hold, rfl⟩ := Option.map_eq_some_iff.mp hnew
    have hold' : t.typeAt? id = some old := by
      unfold typeAt?
      rw [hj]
      exact hold
    exact (hid old hold').imp_left fun hcontinues => ⟨old, hold, hcontinues⟩
  · exact Or.inl ⟨new, hnew, .refl new⟩

theorem typeAt?_pushType_of_hasType (hid : t.HasType id) (info : TypeInfo) :
    (t.pushType info).2.typeAt? id = t.typeAt? id := by
  unfold typeAt? pushType
  rw [Array.getElem?_push_lt hid]
  exact (Array.getElem?_eq_getElem hid).symm

theorem typeAt?_pushType_self (t : Table) (info : TypeInfo) :
    (t.pushType info).2.typeAt? (t.pushType info).1 = some info :=
  Array.getElem?_push_size

theorem addsTypes_pushType (hc : t.Closed) (name : String) (x : GlobalId) :
    AddsTypes [] t (t.pushType { name, global := x }).2 := by
  refine addsTypes_of_names (fun _ => rfl) (fun y id hid => ?_) (fun h => h) fun {id new} hnew => ?_
  · rw [typeAt?_pushType_of_hasType (hc.hasType_of_mem_declared hid)]
  · by_cases hid : t.HasType id
    · rw [typeAt?_pushType_of_hasType hid] at hnew
      exact Or.inl ⟨new, hnew, .refl new⟩
    · have hlast : id.index = t.types.size := by
        have hlt := (Array.getElem?_eq_some_iff.mp hnew).1
        unfold pushType at hlt
        unfold HasType at hid
        rw [Array.size_push] at hlt
        omega
      obtain ⟨i⟩ := id
      obtain rfl : i = t.types.size := hlast
      obtain rfl := Option.some.inj ((typeAt?_pushType_self t _).symm.trans hnew)
      exact Or.inr (TypeInfo.shaped_plain _ name x)

theorem declared_declareType (t : Table) (x y : GlobalId) (id : TypeId) :
    (t.declareType x id).declared y = t.declared y ∨
      y = x ∧ (t.declareType x id).declared y = t.declared y ++ [id] := by
  unfold declared declareType modifyGlobal globalAt?
  dsimp only
  rw [Array.getElem?_modify]
  split_ifs with hy
  · obtain rfl : x = y := GlobalId.index_injective hy
    cases t.globals[x.index]? with
    | none => exact Or.inl rfl
    | some g => exact Or.inr ⟨rfl, rfl⟩
  · exact Or.inl rfl

/-- A type with a new name is declared in a program. -/
theorem addsTypes_declareType (hc : t.Closed) (hid : t.HasType id)
    (hnone : t.findType x (t.typeName id) = none) : AddsTypes [t.typeName id] t (t.declareType x id) where
  found {y name j} hj := by
    rw [findType_eq] at hj ⊢
    rcases declared_declareType t x y id with hd | ⟨-, hd⟩
    · rw [hd]
      exact hj
    · rw [hd, List.find?_append]
      exact congrArg (Option.or · _) hj
  introduced {y name} hname := by
    rw [findType_eq] at hname ⊢
    rcases declared_declareType t x y id with hd | ⟨-, hd⟩
    · rw [hd] at hname
      exact Or.inl hname
    · rw [hd, List.find?_isSome] at hname
      obtain ⟨j, hj, hnamed⟩ := hname
      rcases List.mem_append.mp hj with hj | hj
      · exact Or.inl (List.find?_isSome.mpr ⟨j, hj, hnamed⟩)
      · obtain rfl := List.mem_singleton.mp hj
        exact Or.inr (List.mem_singleton.mpr (typeName_of_typeNamed hnamed).symm)
  distinct hdistinct y := by
    unfold typeNames
    rcases declared_declareType t x y id with hd | ⟨rfl, hd⟩
    · rw [hd]
      exact hdistinct y
    · have hmem : t.typeName id ∉ t.typeNames y := by
        rw [← hc.isSome_findType_iff, hnone]
        exact Bool.false_ne_true
      rw [hd, List.map_append, List.map_singleton, ← List.concat_eq_append]
      exact (hdistinct y).concat hmem
  signature h := h
  types {j new} hnew := Or.inl ⟨new, hnew, .refl new⟩

theorem findType_declareType (hid : t.HasType id) (hx : t.HasGlobal x)
    (hnone : t.findType x (t.typeName id) = none) :
    (t.declareType x id).findType x (t.typeName id) = some id := by
  have hdeclared : (t.declareType x id).declared x = t.declared x ++ [id] := by
    have hg : t.globalAt? x = some t.globals[x.index] := Array.getElem?_eq_getElem hx
    unfold declared declareType modifyGlobal globalAt?
    dsimp only
    rw [Array.getElem?_modify, if_pos rfl]
    unfold globalAt? at hg
    rw [hg]
    rfl
  have hnamed : (t.declareType x id).typeNamed (t.typeName id) id := hid.typeNamed_iff.mpr rfl
  rw [findType_eq] at hnone ⊢
  rw [hdeclared, List.find?_append, List.find?_singleton, if_pos hnamed]
  exact congrArg (Option.or · _) hnone

/-! ### Types on demand -/

theorem addType_of_none (h : t.findType x name = none) : t.addType x name =
    ((t.pushType { name, global := x }).1,
      (t.pushType { name, global := x }).2.declareType x (t.pushType { name, global := x }).1) := by
  unfold addType
  rw [h]
  rfl

theorem typeAt?_addType_of_none (h : t.findType x name = none) :
    (t.addType x name).2.typeAt? (t.addType x name).1 = some { name, global := x } := by
  rw [addType_of_none h]
  exact typeAt?_pushType_self t _

theorem typeName_pushType_self (t : Table) (info : TypeInfo) :
    (t.pushType info).2.typeName (t.pushType info).1 = info.name := by
  unfold typeName
  rw [typeAt?_pushType_self]
  rfl

section Declare

variable (hc : t.Closed) (hx : t.HasGlobal x)

include hc hx

/-- **A type on demand** adds its name at most. -/
theorem addsTypes_addType (name : String) : AddsTypes [name] t (t.addType x name).2 := by
  rcases hfind : t.findType x name with _ | id
  · have hwithin : TypeInfo.Within t { name, global := x } := ⟨by simp, by simp, hx⟩
    have hpush := hc.pushType hwithin
    have hadds := addsTypes_pushType hc name x
    have hdeclare := addsTypes_declareType (x := x) hpush.1.closed hpush.2
    rw [typeName_pushType_self] at hdeclare
    rw [addType_of_none hfind]
    exact hadds.trans (hdeclare (hadds.fresh hfind List.not_mem_nil))
  · unfold addType
    rw [hfind]
    exact (AddsTypes.refl t).mono (List.nil_subset _)

theorem findType_addType (name : String) : (t.addType x name).2.findType x name = some (t.addType x name).1 := by
  rcases hfind : t.findType x name with _ | id
  · have hwithin : TypeInfo.Within t { name, global := x } := ⟨by simp, by simp, hx⟩
    have hpush := hc.pushType hwithin
    have hnone := (addsTypes_pushType hc name x).fresh hfind List.not_mem_nil
    have hfound := findType_declareType hpush.2 (hpush.1.grows.hasGlobal hx)
    rw [typeName_pushType_self] at hfound
    rw [addType_of_none hfind]
    exact hfound hnone
  · unfold addType
    rw [hfind]
    exact hfind

end Declare

theorem typeAt?_createVariables (t : Table) (type : TypeId) (names : List String) (id : TypeId) :
    (t.createVariables type names).2.typeAt? id = t.typeAt? id := by
  induction names generalizing t with
  | nil => rfl
  | cons name names ih => exact ih _

theorem addsTypes_createVariables (t : Table) (type : TypeId) (names : List String) :
    AddsTypes [] t (t.createVariables type names).2 := by
  induction names generalizing t with
  | nil => exact .refl t
  | cons name names ih => exact (t.addsTypes_createVariable type name none).trans (ih _)

/-- New variables have the names and the type that they were made with. -/
theorem signature?_createVariables (t : Table) (type : TypeId) (names : List String) :
    (t.createVariables type names).1.map (t.createVariables type names).2.signature? =
      names.map fun name => some (name, type) := by
  induction names generalizing t with
  | nil => rfl
  | cons name names ih =>
    have hfirst : (t.createVariable type name none).2.signature? (t.createVariable type name none).1 =
        some (name, type) := congrArg (Option.map _) Array.getElem?_push_size
    have hkept := (addsTypes_createVariables (t.createVariable type name none).2 type names).signature hfirst
    exact congrArg₂ List.cons hkept (ih _)

section Shapes

variable {scalar : String} {n rows columns : Nat}

/-- A new type with the name of a vector gets its components. -/
theorem addsTypes_setComponents {s : TypeId} {members : List VariableId} (hn : n ∈ Vocabulary.dimensions)
    (hid : t.typeAt? id = some { name := (TypeShape.mk scalar n none).name, global := x })
    (hscalar : t.findType x scalar = some s)
    (hmembers : members.map t.signature? = (componentNames.take n).map fun c => some (c, s)) :
    AddsTypes [] t (t.modifyType id fun info =>
      { info with members := members, ordered := true, element := some s }) := by
  let f (info : TypeInfo) : TypeInfo := { info with members := members, ordered := true, element := some s }
  have hf : ∀ info, (f info).name = info.name := fun _ => rfl
  refine addsTypes_modifyType (f := f) hf fun old hold => Or.inr ?_
  obtain rfl := Option.some.inj (hid.symm.trans hold)
  have hfound : (t.modifyType id f).findType x scalar = some s := (findType_modifyType hf id x scalar).trans hscalar
  have hname : (t.modifyType id f).typeName s = scalar := typeName_of_findType hfound
  have hlength : members.length = n := by
    have := congrArg List.length hmembers
    rwa [List.length_map, List.length_map, length_take_componentNames hn] at this
  refine ⟨fun _ => ⟨s, n, rfl, ?_, hn, ?_, ?_⟩, fun hordered => absurd rfl hordered⟩
  · rw [hname]
    exact hfound
  · rw [hname]
    rfl
  · rw [← hmembers]
    exact congrArg (List.map t.signature?) (List.take_of_length_le (Nat.le_of_eq hlength))

/-- A new type with the name of a matrix gets its type of rows. -/
theorem addsTypes_setElement {e : TypeId} (hrows : rows ∈ Vocabulary.dimensions)
    (hcolumns : columns ∈ Vocabulary.dimensions)
    (hid : t.typeAt? id = some { name := (TypeShape.mk scalar rows (some columns)).name, global := x })
    (hrow : t.findType x (TypeShape.mk scalar columns none).name = some e) :
    AddsTypes [] t (t.modifyType id fun info => { info with element := some e }) := by
  let f (info : TypeInfo) : TypeInfo := { info with element := some e }
  have hf : ∀ info, (f info).name = info.name := fun _ => rfl
  refine addsTypes_modifyType (f := f) hf fun old hold => Or.inr ?_
  obtain rfl := Option.some.inj (hid.symm.trans hold)
  have hfound := (findType_modifyType hf id x _).trans hrow
  exact ⟨fun hordered => absurd hordered Bool.false_ne_true,
    fun _ _ => ⟨scalar, rows, columns, hrows, hcolumns, rfl, e, rfl, hfound⟩⟩

variable (hc : t.Closed) (hx : t.HasGlobal x)

include hc hx

/-- **A vector on demand** has a new name, so it is a new type. -/
theorem addsTypes_addVector (scalar : String) (hn : n ∈ Vocabulary.dimensions) :
    AddsTypes [scalar, (TypeShape.mk scalar n none).name] t (t.addVector x scalar n).2 ∧
      (t.addVector x scalar n).2.findType x (TypeShape.mk scalar n none).name =
        some (t.addVector x scalar n).1 := by
  unfold addVector
  dsimp only
  split
  · next id hid => exact ⟨(AddsTypes.refl t).mono (List.nil_subset _), hid⟩
  next hnone =>
  have hlength := TypeShape.length_name_vector scalar hn
  have hne : (TypeShape.mk scalar n none).name ∉ [scalar] := by
    rw [List.mem_singleton]
    intro heq
    rw [heq] at hlength
    omega
  -- the scalar, the vector, which is not found yet, its components, and what makes it a vector
  have hscalar := hc.addType hx scalar
  have hadds₁ := addsTypes_addType hc hx scalar
  have hnone₁ := hadds₁.fresh hnone hne
  have hx₁ := hscalar.1.grows.hasGlobal hx
  have hadds₂ := addsTypes_addType hscalar.1.closed hx₁ (TypeShape.mk scalar n none).name
  have hadds₃ := addsTypes_createVariables (((t.addType x scalar).2).addType x
    (TypeShape.mk scalar n none).name).2 (t.addType x scalar).1 (componentNames.take n)
  have hadds₄ := addsTypes_setComponents hn
    ((typeAt?_createVariables _ (t.addType x scalar).1 (componentNames.take n) _).trans
      (typeAt?_addType_of_none hnone₁))
    (hadds₃.found (hadds₂.found (findType_addType hc hx scalar))) (signature?_createVariables _ _ _)
  refine ⟨((hadds₁.trans hadds₂).trans hadds₃).trans hadds₄, ?_⟩
  exact hadds₄.found (hadds₃.found (findType_addType hscalar.1.closed hx₁ _))

/-- **A matrix on demand** has a new name too. -/
theorem addsTypes_addMatrix (scalar : String) (hrows : rows ∈ Vocabulary.dimensions)
    (hcolumns : columns ∈ Vocabulary.dimensions) :
    (∃ names, AddsTypes names t (t.addMatrix x scalar rows columns).2) ∧
      (t.addMatrix x scalar rows columns).2.findType x (TypeShape.mk scalar rows (some columns)).name =
        some (t.addMatrix x scalar rows columns).1 := by
  unfold addMatrix
  dsimp only
  split
  · next id hid => exact ⟨⟨[], .refl t⟩, hid⟩
  next hnone =>
  have hlength := TypeShape.length_name_matrix scalar hrows hcolumns
  have hlength' := TypeShape.length_name_vector scalar hcolumns
  have hne : (TypeShape.mk scalar rows (some columns)).name ∉
      [scalar] ++ [scalar, (TypeShape.mk scalar columns none).name] := by
    intro hmem
    have heq : (TypeShape.mk scalar rows (some columns)).name = scalar ∨
        (TypeShape.mk scalar rows (some columns)).name = (TypeShape.mk scalar columns none).name := by
      simpa using hmem
    rcases heq with heq | heq
    · rw [heq] at hlength
      omega
    · rw [heq] at hlength
      omega
  have hscalar := hc.addType hx scalar
  have hx₁ := hscalar.1.grows.hasGlobal hx
  have hrow := hscalar.1.closed.addVector hx₁ scalar columns
  have hx₂ := hrow.1.grows.hasGlobal hx₁
  obtain ⟨hadds₂, hfound⟩ := addsTypes_addVector hscalar.1.closed hx₁ scalar hcolumns
  have hadds := (addsTypes_addType hc hx scalar).trans hadds₂
  have hadds₃ := addsTypes_addType hrow.1.closed hx₂ (TypeShape.mk scalar rows (some columns)).name
  have hadds₄ := addsTypes_setElement hrows hcolumns (typeAt?_addType_of_none (hadds.fresh hnone hne))
    (hadds₃.found hfound)
  exact ⟨⟨_, (hadds.trans hadds₃).trans hadds₄⟩, hadds₄.found (findType_addType hrow.1.closed hx₂ _)⟩

/-- A shape on demand. -/
theorem addsTypes_addShape {shape : TypeShape} (hshape : shape.InRange) :
    (∃ names, AddsTypes names t (t.addShape x shape).2) ∧
      (t.addShape x shape).2.findType x shape.name = some (t.addShape x shape).1 := by
  obtain ⟨scalar, rows, columns⟩ := shape
  unfold addShape
  cases columns with
  | none =>
    obtain ⟨hadds, hfound⟩ := addsTypes_addVector hc hx scalar hshape.rows
    exact ⟨⟨_, hadds⟩, hfound⟩
  | some columns => exact addsTypes_addMatrix hc hx scalar hshape.rows (hshape.columns columns rfl)

omit hc hx in
theorem of_shapeOf? {shape : TypeShape} (h : t.shapeOf? name = some shape) :
    shape.name = name ∧ shape.InRange :=
  TypeShape.of_ofName? (Option.filter_eq_some_iff.mp h).1

/-- A built-in type is found from then on. -/
theorem addsTypes_addBuiltin (name : String) : (∃ names, AddsTypes names t (t.addBuiltin x name)) ∧
    ((t.addBuiltin x name).findType x name).isSome := by
  unfold addBuiltin
  split_ifs with hfound
  · exact ⟨⟨[], .refl t⟩, hfound⟩
  · split
    · next shape hshape =>
      obtain ⟨rfl, hrange⟩ := of_shapeOf? hshape
      obtain ⟨hadds, hfound⟩ := addsTypes_addShape hc hx hrange
      exact ⟨hadds, by rw [hfound]; rfl⟩
    · exact ⟨⟨_, addsTypes_addType hc hx name⟩, by rw [findType_addType hc hx]; rfl⟩

theorem addsTypes_resolveType (name : String) : ∃ names, AddsTypes names t (t.resolveType x name).2 := by
  unfold resolveType
  split
  · exact ⟨[], .refl t⟩
  · split
    · next shape hshape => exact (addsTypes_addShape hc hx (of_shapeOf? hshape).2).1
    · exact ⟨[], addsTypes_pushType hc _ x⟩

/-- **All names of a list are found** after their types were declared. -/
theorem addsTypes_foldl_addBuiltin (builtins : List String) :
    (∃ names, AddsTypes names t (builtins.foldl (fun t name => t.addBuiltin x name) t)) ∧
      ∀ name ∈ builtins, ((builtins.foldl (fun t name => t.addBuiltin x name) t).findType x name).isSome := by
  induction builtins generalizing t with
  | nil => exact ⟨⟨[], .refl t⟩, fun name hname => absurd hname List.not_mem_nil⟩
  | cons first builtins ih =>
    have hevolves := hc.addBuiltin hx first
    obtain ⟨⟨names, hadds⟩, hfirst⟩ := addsTypes_addBuiltin hc hx first
    obtain ⟨⟨names', hadds'⟩, hrest⟩ := ih hevolves.closed (hevolves.grows.hasGlobal hx)
    refine ⟨⟨_, hadds.trans hadds'⟩, List.forall_mem_cons.mpr ⟨?_, hrest⟩⟩
    obtain ⟨id, hid⟩ := Option.isSome_iff_exists.mp hfirst
    rw [List.foldl_cons, hadds'.found hid]
    rfl

end Shapes

/-! ### Programs -/

theorem declared_push (t : Table) (g : Global) (hg : g.declaredTypes = []) (x : GlobalId) :
    declared { t with globals := t.globals.push g } x = t.declared x := by
  unfold declared globalAt?
  dsimp only
  rw [Array.getElem?_push]
  split_ifs with hx
  · rw [hx, Array.getElem?_eq_none (Nat.le_refl _)]
    exact hg
  · rfl

/-- **A new program** finds all built-in types of its vocabulary. -/
theorem addsTypes_createGlobal (hc : t.Closed) (v : Vocabulary) :
    (∃ names, AddsTypes names t (t.createGlobal v).2) ∧
      ∀ name ∈ v.builtinTypes, ((t.createGlobal v).2.findType (t.createGlobal v).1 name).isSome := by
  have hnew := hc.withProgram v
  have hadds : AddsTypes [] t (t.withProgram v) :=
    addsTypes_of_types rfl (t.declared_push _ rfl) fun h => h
  obtain ⟨⟨names, hadds'⟩, hfound⟩ := addsTypes_foldl_addBuiltin hnew.closed hnew.hasGlobal v.builtinTypes
  exact ⟨⟨_, hadds.trans hadds'⟩, hfound⟩

theorem addsTypes_importType (hc : t.Closed) (x : GlobalId) (id : TypeId) :
    ∃ names, AddsTypes names t (importType x t id) := by
  unfold importType
  split
  · exact ⟨[], .refl t⟩
  next info hid =>
  have hname : t.typeName id = info.name := by
    unfold typeName
    rw [hid]
    rfl
  split_ifs with hfound
  · exact ⟨[], .refl t⟩
  · rw [Option.not_isSome_iff_eq_none, ← hname] at hfound
    exact ⟨_, addsTypes_declareType hc (Array.getElem?_eq_some_iff.mp hid).1 hfound⟩

theorem addsTypes_foldl_importType (hc : t.Closed) (x : GlobalId) {ids : List TypeId}
    (hids : ∀ id ∈ ids, t.HasType id) : ∃ names, AddsTypes names t (ids.foldl (importType x) t) := by
  induction ids generalizing t with
  | nil => exact ⟨[], .refl t⟩
  | cons id ids ih =>
    obtain ⟨hid, hrest⟩ := List.forall_mem_cons.mp hids
    have hevolves := hc.importType x hid
    obtain ⟨names, hadds⟩ := addsTypes_importType hc x id
    obtain ⟨names', hadds'⟩ := ih hevolves.closed fun id hid => hevolves.grows.hasType (hrest id hid)
    exact ⟨_, hadds.trans hadds'⟩

theorem addsTypes_importGlobal (hc : t.Closed) (x source : GlobalId) :
    ∃ names, AddsTypes names t (t.importGlobal x source) := by
  unfold importGlobal
  split
  · exact ⟨[], .refl t⟩
  next s hs =>
  obtain ⟨names, hadds⟩ := addsTypes_foldl_importType hc x (hc.global_within hs).declaredTypes
  let f (g : Global) : Global := { g with functions := s.functions.foldl appendNew g.functions }
  have hfunctions (t : Table) : AddsTypes [] t (t.modifyGlobal x f) :=
    addsTypes_of_types rfl (declared_modifyGlobal (f := f) (fun _ => rfl) x) fun h => h
  dsimp only
  split
  · exact ⟨_, hadds.trans (hfunctions _)⟩
  · exact ⟨_, (hadds.trans (hfunctions _)).trans (addsTypes_of_types rfl (fun _ => rfl) fun h => h)⟩

/-! ### All operations -/

theorem Step.addsTypes (h : Step t t') (hc : t.Closed) : ∃ names, AddsTypes names t t' := by
  cases h with
  | createVariable name semantics _ => exact ⟨[], t.addsTypes_createVariable _ name semantics⟩
  | setArraySize id size =>
    refine ⟨[], addsTypes_of_types rfl (fun _ => rfl) fun {j s} hs => ?_⟩
    exact (signature?_modifyVariable (f := fun v => { v with arraySize := some size }) (fun _ => rfl)
      (fun _ => rfl) id j).trans hs
  | addVariable _ _ => exact ⟨[], t.addsTypes_addVariable _ _⟩
  | @addMember type member _ _ =>
    refine ⟨[], addsTypes_modifyType (f := fun info => { info with members := info.members ++ [member] })
      (fun _ => rfl) fun old _ => Or.inl ?_⟩
    exact ⟨rfl, rfl, rfl, rfl, List.prefix_append _ _⟩
  | addType name hglobal => exact ⟨_, addsTypes_addType hc hglobal name⟩
  | resolveType name hglobal => exact addsTypes_resolveType hc hglobal name
  | createContext _ =>
    unfold Table.createContext
    split
    · exact ⟨[], .refl t⟩
    · exact ⟨[], addsTypes_of_types rfl (fun _ => rfl) fun h => h⟩
  | @addFunction global type name semantics _ _ =>
    refine ⟨[], addsTypes_of_types rfl (fun y => ?_) fun h => h⟩
    exact declared_modifyGlobal (f := fun g => { g with functions := g.functions ++ [⟨t.functions.size⟩] })
      (t := { t with functions := t.functions.push { returnType := type, name, semantics, global } })
      (fun _ => rfl) global y
  | addParameter _ _ =>
    unfold Table.addParameter
    dsimp only
    split
    · exact ⟨[], (t.addsTypes_modifyFunction _ _).trans (addsTypes_addVariable _ _ _)⟩
    · exact ⟨[], t.addsTypes_modifyFunction _ _⟩
  | @setBody function context _ _ =>
    exact ⟨[], (t.addsTypes_modifyFunction function fun f => { f with body := some context }).trans
      (addsTypes_foldl (fun t id => t.addsTypes_addVariable context id) _ _)⟩

/-- **One operation** adds types and keeps those that are there. -/
theorem Operation.addsTypes (h : Operation t t') (hc : t.Closed) : ∃ names, AddsTypes names t t' := by
  cases h with
  | declare hstep => exact hstep.addsTypes hc
  | createGlobal v => exact (addsTypes_createGlobal hc v).1
  | importGlobal _ _ => exact addsTypes_importGlobal hc _ _
  | setShader shader _ =>
    refine ⟨[], addsTypes_of_types rfl (fun y => ?_) fun h => h⟩
    exact declared_modifyGlobal (f := fun g => { g with shader := shader }) (fun _ => rfl) _ y

/-- **The types of a table.** -/
structure Typed (t : Table) : Prop where
  /-- The types that a program declares have different names. -/
  distinct : ∀ x, (t.typeNames x).Nodup
  shaped : ∀ id info, t.typeAt? id = some info → info.Shaped t

theorem AddsTypes.typed (h : AddsTypes names t t') (ht : t.Typed) : t'.Typed := by
  refine ⟨h.distinct ht.distinct, fun id new hnew => ?_⟩
  rcases h.types hnew with ⟨old, hold, hcontinues⟩ | hshaped
  · exact h.shaped hcontinues (ht.shaped id old hold)
  · exact hshaped

theorem typed_empty : ({} : Table).Typed :=
  ⟨fun _ => List.nodup_nil, fun _ _ h => by cases h⟩

theorem Reachable.closed_typed (h : t.Reachable) : t.Closed ∧ t.Typed :=
  h.induct typed_empty fun hc ht hop => by
    obtain ⟨names, hadds⟩ := hop.addsTypes hc
    exact hadds.typed ht

/-- **The types of a reachable table** have different names in every program and are shaped as their names say.
A program that is new finds all built-in types of its vocabulary. -/
theorem typed_of_reachable (t : Table) (h : t.Reachable) : t.Typed ∧ ∀ v : Vocabulary,
    ∀ name ∈ v.builtinTypes, ((t.createGlobal v).2.findType (t.createGlobal v).1 name).isSome := by
  obtain ⟨hc, ht⟩ := h.closed_typed
  exact ⟨ht, fun v => (addsTypes_createGlobal hc v).2⟩

/-- A vocabulary with a scalar that has the name of a vector. -/
def lookalikeScalars : Vocabulary :=
  { (default : Vocabulary) with scalarTypes := ["a", "a1"] }

/-- A program over the scalars, with a matrix of vectors on demand. -/
def lookalikeTypes : Table :=
  ((({} : Table).createGlobal lookalikeScalars).2.resolveType ⟨0⟩ "a12x3").2

theorem typed_of_reachable_lookalikeTypes : lookalikeTypes.Reachable ∧ lookalikeTypes.Typed ∧
    "a11x1" ∈ lookalikeScalars.builtinTypes ∧
    ((lookalikeTypes.createGlobal lookalikeScalars).2.findType (lookalikeTypes.createGlobal lookalikeScalars).1
      "a11x1").isSome := by
  have hreachable : lookalikeTypes.Reachable :=
    (Reachable.createGlobal .refl lookalikeScalars).step
      (.declare (.resolveType "a12x3" (closed_empty.createGlobal lookalikeScalars).hasGlobal))
  obtain ⟨htyped, hfound⟩ := typed_of_reachable lookalikeTypes hreachable
  have hname : "a11x1" ∈ lookalikeScalars.builtinTypes := by decide
  exact ⟨hreachable, htyped, hname, hfound lookalikeScalars "a11x1" hname⟩

end Table

end Cg

end ShaderAssist

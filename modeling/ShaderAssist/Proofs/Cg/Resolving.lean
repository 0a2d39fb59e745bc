import ShaderAssist.Proofs.Cg.Types

/-!
# Resolving names of types

What a name means in a program when it is asked for (`Table.Resolves`): a declared type, a vector or a matrix that is
declared on demand under the very name that was asked for, or a new type that no program declares. Names that were
found before are still found, and only the program that was asked declares anything.
-/

namespace ShaderAssist

namespace Cg

namespace Table

variable {t t' : Table} {x y : GlobalId} {name : String} {id : TypeId}

/-- The name has a shape over a scalar that has vectors and matrices. -/
def HasShape (t : Table) (name : String) : Prop :=
  ∃ shape, TypeShape.ofName? name = some shape ∧ shape.scalar ∈ t.vectorScalars

/-- **What a name means in a program**: the answer `id`, and the table `t'` after the question. -/
structure Resolves (t : Table) (x : GlobalId) (name : String) (id : TypeId) (t' : Table) : Prop where
  /-- A declared type is the answer, and nothing changes. -/
  found : ∀ known, t.findType x name = some known → id = known ∧ t' = t
  /-- A vector or a matrix has the name that was asked for, and is found by it from then on. -/
  shaped : t.findType x name = none → t.HasShape name →
    (t'.typeAt? id).map TypeInfo.name = some name ∧ t'.findType x name = some id
  /-- Any other name gets a new type, and nothing is declared. -/
  placeholder : t.findType x name = none → ¬ t.HasShape name →
    ¬ t.HasType id ∧ t'.typeAt? id = some { name := name ++ "?", global := x } ∧
      ∀ y, id ∉ t'.declared y ∧ t'.declared y = t.declared y
  /-- Whatever was found by a name in any program is found by it. -/
  kept : ∀ y other known, t.findType y other = some known → t'.findType y other = some known
  /-- Other programs declare what they declared before. -/
  others : ∀ y ≠ x, t'.declared y = t.declared y
  /-- A second question has the same answer and changes nothing if the name has a meaning. -/
  again : (t.findType x name).isSome ∨ t.HasShape name → t'.resolveType x name = (id, t')
  /-- Otherwise it declares nothing either. -/
  placeholderAgain : t.findType x name = none → ¬ t.HasShape name →
    ∀ y, (t'.resolveType x name).2.declared y = t'.declared y

/-! ### Programs that are not asked -/

theorem declared_modifyType (t : Table) (id : TypeId) (f : TypeInfo → TypeInfo) (y : GlobalId) :
    (t.modifyType id f).declared y = t.declared y := rfl

theorem declared_createVariables (t : Table) (type : TypeId) (names : List String) (y : GlobalId) :
    (t.createVariables type names).2.declared y = t.declared y := by
  induction names generalizing t with
  | nil => rfl
  | cons name names ih => exact ih _

section Others

variable (hy : y ≠ x)

include hy

theorem declared_declareType_of_ne (t : Table) (id : TypeId) : (t.declareType x id).declared y = t.declared y := by
  rcases declared_declareType t x y id with h | ⟨rfl, -⟩
  · exact h
  · exact absurd rfl hy

theorem declared_addType_of_ne (t : Table) (name : String) : (t.addType x name).2.declared y = t.declared y := by
  unfold addType
  split
  · rfl
  · exact declared_declareType_of_ne hy _ _

theorem declared_addVector_of_ne (t : Table) (scalar : String) (count : Nat) :
    (t.addVector x scalar count).2.declared y = t.declared y := by
  unfold addVector
  dsimp only
  split
  · rfl
  · rw [declared_modifyType, declared_createVariables, declared_addType_of_ne hy, declared_addType_of_ne hy]

theorem declared_addMatrix_of_ne (t : Table) (scalar : String) (rows columns : Nat) :
    (t.addMatrix x scalar rows columns).2.declared y = t.declared y := by
  unfold addMatrix
  dsimp only
  split
  · rfl
  · rw [declared_modifyType, declared_addType_of_ne hy, declared_addVector_of_ne hy, declared_addType_of_ne hy]

theorem declared_addShape_of_ne (t : Table) (shape : TypeShape) :
    (t.addShape x shape).2.declared y = t.declared y := by
  unfold addShape
  split
  · exact declared_addVector_of_ne hy t _ _
  · exact declared_addMatrix_of_ne hy t _ _ _

end Others

/-! ### The three answers -/

theorem hasShape_iff : t.HasShape name ↔ (t.shapeOf? name).isSome := by
  unfold HasShape shapeOf?
  rw [Option.isSome_filter, Option.any_eq_true]
  simp

theorem resolveType_of_found (h : t.findType x name = some id) : t.resolveType x name = (id, t) := by
  unfold resolveType
  rw [h]

theorem resolveType_of_shape {shape : TypeShape} (h : t.findType x name = none)
    (hshape : t.shapeOf? name = some shape) : t.resolveType x name = t.addShape x shape := by
  unfold resolveType
  rw [h]
  dsimp only
  rw [hshape]

theorem resolveType_of_none (h : t.findType x name = none) (hshape : t.shapeOf? name = none) :
    t.resolveType x name = t.pushType { name := name ++ "?", global := x } := by
  unfold resolveType
  rw [h]
  dsimp only
  rw [hshape]

theorem resolves_of_found (h : t.findType x name = some id) : t.Resolves x name id t where
  found _ hknown := ⟨Option.some.inj (h.symm.trans hknown), rfl⟩
  shaped hnone := absurd (h.symm.trans hnone) (Option.some_ne_none id)
  placeholder hnone := absurd (h.symm.trans hnone) (Option.some_ne_none id)
  kept _ _ _ hknown := hknown
  others _ _ := rfl
  again _ := resolveType_of_found h
  placeholderAgain hnone := absurd (h.symm.trans hnone) (Option.some_ne_none id)

theorem map_name_of_findType (h : t.findType x name = some id) :
    (t.typeAt? id).map TypeInfo.name = some name := by
  rw [findType_eq] at h
  have hnamed : t.typeNamed name id := List.find?_some h
  obtain ⟨info, hinfo, hname⟩ := (Option.any_eq_true _ _).mp hnamed
  rw [hinfo, Option.map_some, beq_iff_eq.mp hname]

/-- A vector or a matrix on demand. -/
theorem resolves_addShape {shape : TypeShape} (hc : t.Closed) (hx : t.HasGlobal x) (hnone : t.findType x name = none)
    (hshape : t.shapeOf? name = some shape) :
    t.Resolves x name (t.addShape x shape).1 (t.addShape x shape).2 := by
  obtain ⟨rfl, hrange⟩ := of_shapeOf? hshape
  obtain ⟨⟨names, hadds⟩, hfound⟩ := addsTypes_addShape hc hx hrange
  have hhas : t.HasShape shape.name := hasShape_iff.mpr (by rw [hshape]; rfl)
  exact {
    found := fun known hknown => absurd (hnone.symm.trans hknown) (Option.some_ne_none known).symm
    shaped := fun _ _ => ⟨map_name_of_findType hfound, hfound⟩
    placeholder := fun _ hnot => absurd hhas hnot
    kept := fun _ _ _ hknown => hadds.found hknown
    others := fun y hy => declared_addShape_of_ne hy t shape
    again := fun _ => resolveType_of_found hfound
    placeholderAgain := fun _ hnot => absurd hhas hnot }

/-- A name without a meaning. -/
theorem resolves_pushType (hc : t.Closed) (hnone : t.findType x name = none) (hshape : t.shapeOf? name = none) :
    t.Resolves x name (t.pushType { name := name ++ "?", global := x }).1
      (t.pushType { name := name ++ "?", global := x }).2 := by
  have hadds := addsTypes_pushType hc (name ++ "?") x
  have hnot : ¬ t.HasShape name := by
    rw [hasShape_iff, hshape]
    exact Bool.false_ne_true
  have hnew : ¬ t.HasType (t.pushType { name := name ++ "?", global := x }).1 := Nat.lt_irrefl _
  exact {
    found := fun known hknown => absurd (hnone.symm.trans hknown) (Option.some_ne_none known).symm
    shaped := fun _ hhas => absurd hhas hnot
    placeholder := fun _ _ => ⟨hnew, typeAt?_pushType_self t _, fun y =>
      ⟨fun hmem => hnew (hc.hasType_of_mem_declared hmem), rfl⟩⟩
    kept := fun _ _ _ hknown => hadds.found hknown
    others := fun _ _ => rfl
    again := fun hmeaning => by
      rw [hnone] at hmeaning
      exact absurd (hmeaning.resolve_left Bool.false_ne_true) hnot
    placeholderAgain := fun _ _ y => by
      rw [resolveType_of_none (hadds.fresh hnone List.not_mem_nil) hshape]
      rfl }

/-- **Resolving a name** in a program of a reachable table. -/
theorem resolves_resolveType (t : Table) (h : t.Reachable) (x : GlobalId) (hx : t.HasGlobal x) (name : String) :
    t.Resolves x name (t.resolveType x name).1 (t.resolveType x name).2 := by
  have hc := h.closed
  cases hfind : t.findType x name with
  | some id =>
    rw [resolveType_of_found hfind]
    exact resolves_of_found hfind
  | none =>
    cases hshape : t.shapeOf? name with
    | some shape =>
      rw [resolveType_of_shape hfind hshape]
      exact resolves_addShape hc hx hfind hshape
    | none =>
      rw [resolveType_of_none hfind hshape]
      exact resolves_pushType hc hfind hshape

/-- A program over a scalar that has the name of a vector. -/
def lookalikeProgram : Table :=
  (({} : Table).createGlobal lookalikeScalars).2

theorem resolves_resolveType_lookalikeProgram : lookalikeProgram.Reachable ∧ lookalikeProgram.HasGlobal ⟨0⟩ ∧
    lookalikeProgram.findType ⟨0⟩ "a12x3" = none ∧ lookalikeProgram.HasShape "a12x3" ∧
    lookalikeProgram.Resolves ⟨0⟩ "a12x3" (lookalikeProgram.resolveType ⟨0⟩ "a12x3").1
      (lookalikeProgram.resolveType ⟨0⟩ "a12x3").2 := by
  have hreachable : lookalikeProgram.Reachable := Reachable.createGlobal .refl lookalikeScalars
  have hx : lookalikeProgram.HasGlobal ⟨0⟩ := (closed_empty.createGlobal lookalikeScalars).hasGlobal
  have hshape : lookalikeProgram.HasShape "a12x3" := hasShape_iff.mpr (by decide +kernel)
  exact ⟨hreachable, hx, by decide +kernel, hshape,
    resolves_resolveType lookalikeProgram hreachable ⟨0⟩ hx "a12x3"⟩

end Table

end Cg

end ShaderAssist

import ShaderAssist.Proofs.Cg.Resolving

/-!
# Names of types on demand

The type that is declared for a shape has the name of the shape, in every table and whatever was declared before
(`Table.answeredName?_addShape`). Names are read in the way they are written, so a type that is declared for the shape
of a name has the name that was asked for.
-/

namespace ShaderAssist

namespace Cg

namespace Table

/-- The name of the type that an operation answers with. -/
def answeredName? (answer : TypeId × Table) : Option String :=
  (answer.2.typeAt? answer.1).map TypeInfo.name

/-- Changes of a type that leave its name alone. -/
theorem answeredName?_modifyType {f : TypeInfo → TypeInfo} (hf : ∀ info, (f info).name = info.name) (t : Table)
    (id j : TypeId) : answeredName? (id, t.modifyType j f) = answeredName? (id, t) :=
  map_getElem?_modify hf t.types j.index id.index

theorem answeredName?_createVariables (t : Table) (id type : TypeId) (names : List String) :
    answeredName? (id, (t.createVariables type names).2) = answeredName? (id, t) :=
  congrArg (Option.map TypeInfo.name) (typeAt?_createVariables t type names id)

theorem answeredName?_addType (t : Table) (x : GlobalId) (name : String) :
    answeredName? (t.addType x name) = some name := by
  cases hfind : t.findType x name with
  | some id =>
    unfold addType
    rw [hfind]
    exact map_name_of_findType hfind
  | none => exact congrArg (Option.map TypeInfo.name) (typeAt?_addType_of_none hfind)

theorem answeredName?_addVector (t : Table) (x : GlobalId) (scalar : String) (count : Nat) :
    answeredName? (t.addVector x scalar count) = some (TypeShape.mk scalar count none).name := by
  unfold addVector
  dsimp only
  split
  · next hid => exact map_name_of_findType hid
  · rw [answeredName?_modifyType, answeredName?_createVariables]
    · exact answeredName?_addType _ x _
    · exact fun _ => rfl

theorem answeredName?_addMatrix (t : Table) (x : GlobalId) (scalar : String) (rows columns : Nat) :
    answeredName? (t.addMatrix x scalar rows columns) = some (TypeShape.mk scalar rows (some columns)).name := by
  unfold addMatrix
  dsimp only
  split
  · next hid => exact map_name_of_findType hid
  · rw [answeredName?_modifyType]
    · exact answeredName?_addType _ x _
    · exact fun _ => rfl

/-- **A shape on demand** has its name. -/
theorem answeredName?_addShape (t : Table) (x : GlobalId) (shape : TypeShape) :
    answeredName? (t.addShape x shape) = some shape.name := by
  obtain ⟨scalar, rows, columns⟩ := shape
  cases columns with
  | none => exact answeredName?_addVector t x scalar rows
  | some columns => exact answeredName?_addMatrix t x scalar rows columns

end Table

end Cg

namespace TypeShape

open Cg

/-- **Reading and writing names of shapes.** A name has a shape exactly if the shape is written like this, and then
the type that is declared for the shape has this name. -/
theorem ofName?_inverts_name (name : String) (shape : TypeShape) :
    (ofName? name = some shape ↔ shape.WrittenAs name) ∧
      (ofName? name = some shape → shape.name = name ∧
        ∀ (t : Table) (x : GlobalId), Table.answeredName? (t.addShape x shape) = some name) := by
  refine ⟨⟨writtenAs_of_ofName?, WrittenAs.ofName?⟩, fun h => ?_⟩
  have hname : shape.name = name := (of_ofName? h).1
  refine ⟨hname, fun t x => ?_⟩
  rw [Table.answeredName?_addShape, hname]

/-- A scalar that ends in a digit, and one that ends in a superscript, which is no digit, and an `x`. -/
theorem ofName?_inverts_name_lookalikes :
    ofName? "a12x3" = some ⟨"a1", 2, some 3⟩ ∧ WrittenAs ⟨"a1", 2, some 3⟩ "a12x3" ∧
      Table.answeredName? (Table.lookalikeProgram.addShape ⟨0⟩ ⟨"a1", 2, some 3⟩) = some "a12x3" ∧
    ofName? "m²x4" = some ⟨"m²x", 4, none⟩ ∧ WrittenAs ⟨"m²x", 4, none⟩ "m²x4" ∧
      Table.answeredName? (Table.lookalikeProgram.addShape ⟨0⟩ ⟨"m²x", 4, none⟩) = some "m²x4" := by
  have hmatrix : ofName? "a12x3" = some ⟨"a1", 2, some 3⟩ := by decide +kernel
  have hvector : ofName? "m²x4" = some ⟨"m²x", 4, none⟩ := by decide +kernel
  obtain ⟨hwritten, hnamed⟩ := ofName?_inverts_name "a12x3" ⟨"a1", 2, some 3⟩
  obtain ⟨hwritten', hnamed'⟩ := ofName?_inverts_name "m²x4" ⟨"m²x", 4, none⟩
  exact ⟨hmatrix, hwritten.mp hmatrix, (hnamed hmatrix).2 _ _, hvector, hwritten'.mp hvector,
    (hnamed' hvector).2 _ _⟩

end TypeShape

end ShaderAssist

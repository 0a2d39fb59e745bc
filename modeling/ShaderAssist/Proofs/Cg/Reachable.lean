import ShaderAssist.Proofs.Cg.Closed

/-!
# Reachable tables

A table grows out of the empty one by operations on numbers that it has handed out: declarations, new programs,
imports of one program into another one, and links of programs to shaders (`Table.Operation`). Whatever every
operation on a closed table keeps, holds in every table that is reached like this (`Reachable.induct`).
-/

namespace ShaderAssist

namespace Cg

namespace Table

variable {t t' : Table}

/-- An operation on numbers of a table. -/
inductive Operation : Table → Table → Prop where
  | declare {t t' : Table} : Step t t' → Operation t t'
  | createGlobal (t : Table) (v : Vocabulary) : Operation t (t.createGlobal v).2
  | importGlobal {t : Table} {global source : GlobalId} : t.HasGlobal global → t.HasGlobal source →
    Operation t (t.importGlobal global source)
  | setShader {t : Table} {global : GlobalId} (shader : Option ShaderId) : t.HasGlobal global →
    Operation t (t.setShader global shader)

/-- A table that operations lead to from the empty one. -/
def Reachable (t : Table) : Prop :=
  Relation.ReflTransGen Operation {} t

theorem Reachable.step (h : t.Reachable) (hop : Operation t t') : t'.Reachable :=
  Relation.ReflTransGen.tail h hop

theorem Reachable.createGlobal (h : t.Reachable) (v : Vocabulary) : (t.createGlobal v).2.Reachable :=
  h.step (.createGlobal t v)

theorem Closed.setShader (h : t.Closed) (global : GlobalId) (shader : Option ShaderId) :
    (t.setShader global shader).Closed :=
  h.closed_modifyGlobal global fun _ hg => ⟨hg.context, hg.declaredTypes, hg.functions⟩

/-- **One operation** keeps a table closed. -/
theorem Operation.closed (hop : Operation t t') (h : t.Closed) : t'.Closed := by
  cases hop with
  | declare hstep => exact (hstep.evolves h).closed
  | createGlobal v => exact (h.createGlobal v).closed
  | importGlobal _ _ => exact (h.importGlobal _ _).closed
  | setShader shader _ => exact h.setShader _ shader

/-- **Invariants of reachable tables.** -/
theorem Reachable.induct {P : Table → Prop} (h : t.Reachable) (empty : P {})
    (step : ∀ {t t'}, t.Closed → P t → Operation t t' → P t') : t.Closed ∧ P t := by
  induction h with
  | refl => exact ⟨closed_empty, empty⟩
  | tail _ hop ih => exact ⟨hop.closed ih.1, step ih.1 ih.2 hop⟩

theorem Reachable.closed (h : t.Reachable) : t.Closed :=
  (h.induct (P := fun _ => True) trivial fun _ _ _ => trivial).1

end Table

end Cg

end ShaderAssist

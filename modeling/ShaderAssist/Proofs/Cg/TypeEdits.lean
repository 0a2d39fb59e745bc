import ShaderAssist.Proofs.Cg.Closed

/-!
# Edits of types

What declares types, on demand or for a vocabulary or an import, does it by a few edits of a table
(`Table.TypeEdit`): it appends a type, declares it in a program or changes it except for its name, or creates a
variable that nothing lists yet. So whatever the edits leave alone is left alone by all of these operations
(`TypeEdits.eq`).
-/

namespace ShaderAssist

namespace Cg

namespace Table

variable {t t' t'' : Table}

/-- The table with one more declaration in a program. -/
def declareType (t : Table) (x : GlobalId) (id : TypeId) : Table :=
  t.modifyGlobal x fun g => { g with declaredTypes := g.declaredTypes ++ [id] }

/-- An edit of the types of a table. -/
inductive TypeEdit : Table → Table → Prop where
  | pushType (t : Table) (info : TypeInfo) : TypeEdit t (t.pushType info).2
  | declareType (t : Table) (x : GlobalId) (id : TypeId) : TypeEdit t (t.declareType x id)
  | modifyType (t : Table) (id : TypeId) {f : TypeInfo → TypeInfo} (hf : ∀ info, (f info).name = info.name) :
    TypeEdit t (t.modifyType id f)
  | createVariable (t : Table) (type : TypeId) (name : String) (semantics : Option String) :
    TypeEdit t (t.createVariable type name semantics).2

/-- Edits one after the other. -/
def TypeEdits : Table → Table → Prop :=
  Relation.ReflTransGen TypeEdit

theorem TypeEdit.single (h : TypeEdit t t') : TypeEdits t t' :=
  Relation.ReflTransGen.single h

namespace TypeEdits

theorem refl (t : Table) : TypeEdits t t :=
  Relation.ReflTransGen.refl

theorem trans (h : TypeEdits t t') (h' : TypeEdits t' t'') : TypeEdits t t'' :=
  Relation.ReflTransGen.trans h h'

theorem tail (h : TypeEdits t t') (h' : TypeEdit t' t'') : TypeEdits t t'' :=
  Relation.ReflTransGen.tail h h'

/-- **What every edit leaves alone** is left alone by all of them. -/
theorem eq {α : Type} {p : Table → α} (hp : ∀ {t t'}, TypeEdit t t' → p t' = p t) (h : TypeEdits t t') :
    p t' = p t := by
  induction h with
  | refl => rfl
  | tail _ hedit ih => exact (hp hedit).trans ih

theorem foldl {α : Type} {f : Table → α → Table} (h : ∀ t a, TypeEdits t (f t a)) (as : List α) (t : Table) :
    TypeEdits t (as.foldl f t) := by
  induction as generalizing t with
  | nil => exact .refl t
  | cons a as ih => exact (h t a).trans (ih (f t a))

end TypeEdits

/-! ### Operations that edit types -/

theorem typeEdits_addType (t : Table) (x : GlobalId) (name : String) : TypeEdits t (t.addType x name).2 := by
  unfold addType
  split
  · exact .refl t
  · exact (TypeEdit.pushType t _).single.tail (.declareType _ x _)

theorem typeEdits_createVariables (t : Table) (type : TypeId) (names : List String) :
    TypeEdits t (t.createVariables type names).2 := by
  induction names generalizing t with
  | nil => exact .refl t
  | cons name names ih => exact (TypeEdit.createVariable t type name none).single.trans (ih _)

theorem typeEdits_addVector (t : Table) (x : GlobalId) (scalar : String) (count : Nat) :
    TypeEdits t (t.addVector x scalar count).2 := by
  unfold addVector
  dsimp only
  split
  · exact .refl t
  · exact (((t.typeEdits_addType x scalar).trans (typeEdits_addType _ x _)).trans
      (typeEdits_createVariables _ _ _)).tail (.modifyType _ _ fun _ => rfl)

theorem typeEdits_addMatrix (t : Table) (x : GlobalId) (scalar : String) (rows columns : Nat) :
    TypeEdits t (t.addMatrix x scalar rows columns).2 := by
  unfold addMatrix
  dsimp only
  split
  · exact .refl t
  · exact (((t.typeEdits_addType x scalar).trans (typeEdits_addVector _ x scalar columns)).trans
      (typeEdits_addType _ x _)).tail (.modifyType _ _ fun _ => rfl)

theorem typeEdits_addShape (t : Table) (x : GlobalId) (shape : TypeShape) :
    TypeEdits t (t.addShape x shape).2 := by
  unfold addShape
  split
  · exact t.typeEdits_addVector x _ _
  · exact t.typeEdits_addMatrix x _ _ _

theorem typeEdits_addBuiltin (t : Table) (x : GlobalId) (name : String) : TypeEdits t (t.addBuiltin x name) := by
  unfold addBuiltin
  split_ifs
  · exact .refl t
  · split
    · exact t.typeEdits_addShape x _
    · exact t.typeEdits_addType x name

theorem typeEdits_resolveType (t : Table) (x : GlobalId) (name : String) :
    TypeEdits t (t.resolveType x name).2 := by
  unfold resolveType
  split
  · exact .refl t
  · split
    · exact t.typeEdits_addShape x _
    · exact (TypeEdit.pushType t _).single

theorem typeEdits_importType (x : GlobalId) (t : Table) (id : TypeId) : TypeEdits t (importType x t id) := by
  unfold importType
  split
  · exact .refl t
  · split_ifs
    · exact .refl t
    · exact (TypeEdit.declareType t x id).single

/-- The built-in types of a new program. -/
theorem typeEdits_createGlobal (t : Table) (v : Vocabulary) : TypeEdits (t.withProgram v) (t.createGlobal v).2 :=
  .foldl (fun t name => t.typeEdits_addBuiltin _ name) v.builtinTypes (t.withProgram v)

end Table

end Cg

end ShaderAssist

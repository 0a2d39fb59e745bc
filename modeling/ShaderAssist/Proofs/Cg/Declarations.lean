import ShaderAssist.Proofs.Cg.TypeEdits

/-!
# Declarations of variables

What a variable is declared with: its name, its type and its array size. Operations on a table append declarations
and leave those that are there alone (`Table.declarations`); only `setArraySize` changes one, and what declares a
variable uses it on the variable that it has just created.
-/

namespace ShaderAssist

namespace Cg

/-- What a variable is declared with. -/
structure Declaration where
  name : String
  type : TypeId
  arraySize : Option String
deriving DecidableEq, Repr

/-- The declaration of a variable. -/
def Variable.declaration (v : Variable) : Declaration :=
  ⟨v.name, v.type, v.arraySize⟩

namespace Table

variable {t t' : Table}

/-- The declarations of all variables in order. -/
def declarations (t : Table) : List Declaration :=
  (t.vars.map Variable.declaration).toList

theorem length_declarations (t : Table) : t.declarations.length = t.vars.size := by
  simp [declarations]

theorem getElem?_declarations (t : Table) (id : VariableId) :
    t.declarations[id.index]? = (t.variableAt? id).map Variable.declaration := by
  simp [declarations, variableAt?]

/-! ### Operations -/

theorem declarations_createVariable (t : Table) (type : TypeId) (name : String) (semantics : Option String) :
    (t.createVariable type name semantics).2.declarations = t.declarations ++ [⟨name, type, none⟩] := by
  simp [createVariable, declarations, Variable.declaration]

theorem declarations_modifyVariable {f : Variable → Variable} (hf : ∀ v, (f v).declaration = v.declaration)
    (t : Table) (id : VariableId) : (t.modifyVariable id f).declarations = t.declarations := by
  unfold declarations modifyVariable
  rw [map_modify_of_eq hf]

/-- A size for the variable that was created last. -/
theorem declarations_setArraySize (t : Table) (type : TypeId) (name : String) (semantics : Option String)
    (size : String) : ((t.createVariable type name semantics).2.setArraySize
      (t.createVariable type name semantics).1 size).declarations = t.declarations ++ [⟨name, type, some size⟩] := by
  unfold declarations setArraySize modifyVariable createVariable
  rw [modify_push_size]
  simp [Variable.declaration]

theorem declarations_addVariable (t : Table) (context : ContextId) (id : VariableId) :
    (t.addVariable context id).declarations = t.declarations :=
  declarations_modifyVariable (f := fun v => { v with context := some context }) (fun _ => rfl)
    (t.modifyContext context fun c => { c with vars := c.vars ++ [id] }) id

theorem declarations_addParameter (t : Table) (function : FunctionId) (parameter : VariableId) :
    (t.addParameter function parameter).declarations = t.declarations := by
  unfold addParameter
  dsimp only
  split
  · exact declarations_addVariable _ _ _
  · rfl

theorem declarations_setBody (t : Table) (function : FunctionId) (context : ContextId) :
    (t.setBody function context).declarations = t.declarations := by
  have hfold (ids : List VariableId) (t : Table) :
      (ids.foldl (fun t id => t.addVariable context id) t).declarations = t.declarations := by
    induction ids generalizing t with
    | nil => rfl
    | cons id ids ih => exact (ih _).trans (t.declarations_addVariable context id)
  exact hfold _ _

theorem declarations_createContext (t : Table) (upper : ContextId) :
    (t.createContext upper).2.declarations = t.declarations := by
  unfold createContext
  split
  · rfl
  · rfl

/-! ### Types and programs -/

theorem TypeEdit.declarations (h : TypeEdit t t') : t.declarations <+: t'.declarations := by
  cases h with
  | createVariable type name semantics =>
    rw [declarations_createVariable]
    exact List.prefix_append _ _
  | _ => exact List.prefix_rfl

/-- **Types on demand** may come with components, which are declared after all other variables. -/
theorem TypeEdits.declarations (h : TypeEdits t t') : t.declarations <+: t'.declarations := by
  induction h with
  | refl => exact List.prefix_rfl
  | tail _ hedit ih => exact ih.trans hedit.declarations

theorem declarations_createGlobal (t : Table) (v : Vocabulary) :
    t.declarations <+: (t.createGlobal v).2.declarations :=
  (t.typeEdits_createGlobal v).declarations

theorem declarations_importGlobal (t : Table) (x source : GlobalId) :
    t.declarations <+: (t.importGlobal x source).declarations := by
  unfold importGlobal
  split
  · exact List.prefix_rfl
  next s _ =>
  have htypes : TypeEdits t (s.declaredTypes.foldl (importType x) t) :=
    .foldl (typeEdits_importType x) s.declaredTypes t
  dsimp only
  split
  · exact htypes.declarations
  · exact htypes.declarations

end Table

end Cg

end ShaderAssist

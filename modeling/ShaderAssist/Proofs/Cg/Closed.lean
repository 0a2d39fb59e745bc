import Mathlib.Logic.Relation
import Mathlib.Tactic.Common
import ShaderAssist.Cg.Table

/-!
# Numbers of a table

A table is *closed* if every number in it, in a list or as a back reference, is the number of something in
the table (`Table.Closed`). Operations on numbers of a closed table lead to a closed table, in which what was
there keeps its number and every program keeps its shader (`Table.Evolves`). What is declared in a program is
a sequence of such operations (`Table.Step`); only a new program and its link to a shader are not among them.
-/

namespace ShaderAssist

/-! ### Arrays with one element changed -/

theorem forall_mem_push {α : Type} {P : α → Prop} {xs : Array α} {x : α} (h : ∀ y ∈ xs, P y) (hx : P x) :
    ∀ y ∈ xs.push x, P y := by
  intro y hy
  rcases Array.mem_push.mp hy with hy | rfl
  · exact h y hy
  · exact hx

theorem forall_mem_modify {α : Type} {P : α → Prop} {xs : Array α} {i : Nat} {f : α → α}
    (h : ∀ y ∈ xs, P y) (hf : ∀ y, P y → P (f y)) : ∀ y ∈ xs.modify i f, P y := by
  intro y hy
  obtain ⟨j, hj⟩ := Array.mem_iff_getElem?.mp hy
  rw [Array.getElem?_modify] at hj
  split_ifs at hj
  · obtain ⟨x, hx, rfl⟩ := Option.map_eq_some_iff.mp hj
    exact hf x (h x (Array.mem_of_getElem? hx))
  · exact h y (Array.mem_of_getElem? hj)

theorem map_modify {α β : Type} {p : α → β} {f : α → α} {q : β → β} (h : ∀ x, p (f x) = q (p x))
    (xs : Array α) (i : Nat) : (xs.modify i f).map p = (xs.map p).modify i q := by
  apply Array.ext_getElem?
  intro j
  simp only [Array.getElem?_map, Array.getElem?_modify]
  split_ifs
  · cases xs[j]? <;> simp [h]
  · rfl

theorem modify_id {α : Type} (xs : Array α) (i : Nat) : xs.modify i id = xs := by
  apply Array.ext_getElem?
  intro j
  rw [Array.getElem?_modify, Option.map_id, id, ite_self]

theorem map_modify_of_eq {α β : Type} {p : α → β} {f : α → α} (h : ∀ x, p (f x) = p x) (xs : Array α)
    (i : Nat) : (xs.modify i f).map p = xs.map p := by
  rw [map_modify (q := id) h, modify_id]

theorem modify_push_size {α : Type} (xs : Array α) (x : α) (f : α → α) :
    (xs.push x).modify xs.size f = xs.push (f x) := by
  apply Array.ext_getElem?
  intro j
  simp only [Array.getElem?_modify, Array.getElem?_push]
  split_ifs <;> simp_all

namespace Cg

namespace Table

/-! ### Closed tables -/

/-- The number of a type of the table. -/
def HasType (t : Table) (id : TypeId) : Prop :=
  id.index < t.types.size

/-- The number of a variable of the table. -/
def HasVariable (t : Table) (id : VariableId) : Prop :=
  id.index < t.vars.size

/-- The number of a function of the table. -/
def HasFunction (t : Table) (id : FunctionId) : Prop :=
  id.index < t.functions.size

/-- The number of a context of the table. -/
def HasContext (t : Table) (id : ContextId) : Prop :=
  id.index < t.contexts.size

/-- The number of a program of the table. -/
def HasGlobal (t : Table) (id : GlobalId) : Prop :=
  id.index < t.globals.size

instance (t : Table) (id : TypeId) : Decidable (t.HasType id) :=
  inferInstanceAs (Decidable (_ < _))

instance (t : Table) (id : VariableId) : Decidable (t.HasVariable id) :=
  inferInstanceAs (Decidable (_ < _))

instance (t : Table) (id : FunctionId) : Decidable (t.HasFunction id) :=
  inferInstanceAs (Decidable (_ < _))

instance (t : Table) (id : ContextId) : Decidable (t.HasContext id) :=
  inferInstanceAs (Decidable (_ < _))

instance (t : Table) (id : GlobalId) : Decidable (t.HasGlobal id) :=
  inferInstanceAs (Decidable (_ < _))

/-- What has a number in the one table has it in the other one. -/
structure Grows (t t' : Table) : Prop where
  types : t.types.size ≤ t'.types.size
  vars : t.vars.size ≤ t'.vars.size
  functions : t.functions.size ≤ t'.functions.size
  contexts : t.contexts.size ≤ t'.contexts.size
  globals : t.globals.size ≤ t'.globals.size

theorem Grows.refl (t : Table) : t.Grows t :=
  ⟨Nat.le_refl _, Nat.le_refl _, Nat.le_refl _, Nat.le_refl _, Nat.le_refl _⟩

theorem Grows.trans {t t' t'' : Table} (h : t.Grows t') (h' : t'.Grows t'') : t.Grows t'' :=
  ⟨Nat.le_trans h.types h'.types, Nat.le_trans h.vars h'.vars, Nat.le_trans h.functions h'.functions,
    Nat.le_trans h.contexts h'.contexts, Nat.le_trans h.globals h'.globals⟩

theorem Grows.hasType {t t' : Table} (h : t.Grows t') {id : TypeId} (hid : t.HasType id) :
    t'.HasType id :=
  Nat.lt_of_lt_of_le hid h.types

theorem Grows.hasVariable {t t' : Table} (h : t.Grows t') {id : VariableId} (hid : t.HasVariable id) :
    t'.HasVariable id :=
  Nat.lt_of_lt_of_le hid h.vars

theorem Grows.hasFunction {t t' : Table} (h : t.Grows t') {id : FunctionId} (hid : t.HasFunction id) :
    t'.HasFunction id :=
  Nat.lt_of_lt_of_le hid h.functions

theorem Grows.hasContext {t t' : Table} (h : t.Grows t') {id : ContextId} (hid : t.HasContext id) :
    t'.HasContext id :=
  Nat.lt_of_lt_of_le hid h.contexts

theorem Grows.hasGlobal {t t' : Table} (h : t.Grows t') {id : GlobalId} (hid : t.HasGlobal id) :
    t'.HasGlobal id :=
  Nat.lt_of_lt_of_le hid h.globals

end Table

/-- The numbers in a type are those of a table. -/
structure TypeInfo.Within (t : Table) (info : TypeInfo) : Prop where
  members : ∀ id ∈ info.members, t.HasVariable id
  element : ∀ id ∈ info.element, t.HasType id
  global : t.HasGlobal info.global

/-- The numbers in a variable are those of a table. -/
structure Variable.Within (t : Table) (v : Variable) : Prop where
  type : t.HasType v.type
  context : ∀ id ∈ v.context, t.HasContext id

/-- The numbers in a function are those of a table. -/
structure Function.Within (t : Table) (f : Function) : Prop where
  returnType : t.HasType f.returnType
  parameters : ∀ id ∈ f.parameters, t.HasVariable id
  global : t.HasGlobal f.global
  body : ∀ id ∈ f.body, t.HasContext id

/-- The numbers in a context are those of a table. -/
structure Context.Within (t : Table) (c : Context) : Prop where
  upper : ∀ id ∈ c.upper, t.HasContext id
  contexts : ∀ id ∈ c.contexts, t.HasContext id
  vars : ∀ id ∈ c.vars, t.HasVariable id
  global : t.HasGlobal c.global

/-- The numbers in a program are those of a table; the shader is not in the table. -/
structure Global.Within (t : Table) (g : Global) : Prop where
  context : t.HasContext g.context
  declaredTypes : ∀ id ∈ g.declaredTypes, t.HasType id
  functions : ∀ id ∈ g.functions, t.HasFunction id

section Mono

variable {t t' : Table} (h : t.Grows t')

include h

theorem TypeInfo.Within.mono {info : TypeInfo} (hw : info.Within t) : info.Within t' :=
  ⟨fun id hid => h.hasVariable (hw.members id hid), fun id hid => h.hasType (hw.element id hid),
    h.hasGlobal hw.global⟩

theorem Variable.Within.mono {v : Variable} (hw : v.Within t) : v.Within t' :=
  ⟨h.hasType hw.type, fun id hid => h.hasContext (hw.context id hid)⟩

theorem Function.Within.mono {f : Function} (hw : f.Within t) : f.Within t' :=
  ⟨h.hasType hw.returnType, fun id hid => h.hasVariable (hw.parameters id hid), h.hasGlobal hw.global,
    fun id hid => h.hasContext (hw.body id hid)⟩

theorem Context.Within.mono {c : Context} (hw : c.Within t) : c.Within t' :=
  ⟨fun id hid => h.hasContext (hw.upper id hid), fun id hid => h.hasContext (hw.contexts id hid),
    fun id hid => h.hasVariable (hw.vars id hid), h.hasGlobal hw.global⟩

theorem Global.Within.mono {g : Global} (hw : g.Within t) : g.Within t' :=
  ⟨h.hasContext hw.context, fun id hid => h.hasType (hw.declaredTypes id hid),
    fun id hid => h.hasFunction (hw.functions id hid)⟩

end Mono

namespace Table

/-- Every number in the table is the number of something in it. -/
structure Closed (t : Table) : Prop where
  types : ∀ info ∈ t.types, info.Within t
  vars : ∀ v ∈ t.vars, v.Within t
  functions : ∀ f ∈ t.functions, f.Within t
  contexts : ∀ c ∈ t.contexts, c.Within t
  globals : ∀ g ∈ t.globals, g.Within t

/-- The shaders that the programs are linked to. -/
def links (t : Table) : Array (Option ShaderId) :=
  t.globals.map Global.shader

theorem size_links (t : Table) : t.links.size = t.globals.size :=
  Array.size_map

/-- A closed table that grew out of another one and has the same programs, linked to the same shaders. -/
structure Evolves (t t' : Table) : Prop where
  grows : t.Grows t'
  links : t'.links = t.links
  closed : t'.Closed

/-- An operation that leads to a closed table and answers with a number in it. -/
def Gives {ι : Type} (has : Table → ι → Prop) (t : Table) (answer : ι × Table) : Prop :=
  t.Evolves answer.2 ∧ has answer.2 answer.1

variable {t t' : Table}

theorem Closed.refl (h : t.Closed) : t.Evolves t :=
  ⟨Grows.refl t, rfl, h⟩

theorem Evolves.trans {t'' : Table} (h : t.Evolves t') (h' : t'.Evolves t'') : t.Evolves t'' :=
  ⟨h.grows.trans h'.grows, h'.links.trans h.links, h'.closed⟩

theorem Evolves.size_globals (h : t.Evolves t') : t'.globals.size = t.globals.size := by
  rw [← size_links, ← size_links, h.links]

theorem Gives.after {ι : Type} {has : Table → ι → Prop} {answer : ι × Table} (h : t.Evolves t')
    (h' : t'.Gives has answer) : t.Gives has answer :=
  ⟨h.trans h'.1, h'.2⟩

theorem closed_empty : ({} : Table).Closed := by
  constructor <;> simp

/-- A table is closed if the numbers in its parts were there before it grew. -/
theorem Grows.closed (h : t.Grows t') (types : ∀ info ∈ t'.types, info.Within t)
    (vars : ∀ v ∈ t'.vars, v.Within t) (functions : ∀ f ∈ t'.functions, f.Within t)
    (contexts : ∀ c ∈ t'.contexts, c.Within t) (globals : ∀ g ∈ t'.globals, g.Within t) : t'.Closed :=
  ⟨fun x hx => (types x hx).mono h, fun x hx => (vars x hx).mono h, fun x hx => (functions x hx).mono h,
    fun x hx => (contexts x hx).mono h, fun x hx => (globals x hx).mono h⟩

/-- Operations one after the other. -/
theorem Closed.foldl {α : Type} {f : Table → α → Table} {xs : List α} (h : t.Closed)
    (step : ∀ t', t.Evolves t' → ∀ x ∈ xs, t'.Evolves (f t' x)) : t.Evolves (xs.foldl f t) := by
  induction xs generalizing t with
  | nil => exact h.refl
  | cons x xs ih =>
    have hfirst := step t h.refl x List.mem_cons_self
    exact hfirst.trans (ih hfirst.closed fun t' ht' y hy =>
      step t' (hfirst.trans ht') y (List.mem_cons_of_mem x hy))

/-! ### Parts changed and added -/

theorem Closed.modifyType (h : t.Closed) (id : TypeId) {f : TypeInfo → TypeInfo}
    (hf : ∀ x : TypeInfo, x.Within t → (f x).Within t) : t.Evolves (t.modifyType id f) :=
  have hg : t.Grows (t.modifyType id f) := by constructor <;> simp [Table.modifyType]
  ⟨hg, rfl, hg.closed (forall_mem_modify h.types hf) h.vars h.functions h.contexts h.globals⟩

theorem Closed.modifyVariable (h : t.Closed) (id : VariableId) {f : Variable → Variable}
    (hf : ∀ x : Variable, x.Within t → (f x).Within t) : t.Evolves (t.modifyVariable id f) :=
  have hg : t.Grows (t.modifyVariable id f) := by constructor <;> simp [Table.modifyVariable]
  ⟨hg, rfl, hg.closed h.types (forall_mem_modify h.vars hf) h.functions h.contexts h.globals⟩

theorem Closed.modifyFunction (h : t.Closed) (id : FunctionId) {f : Function → Function}
    (hf : ∀ x : Function, x.Within t → (f x).Within t) : t.Evolves (t.modifyFunction id f) :=
  have hg : t.Grows (t.modifyFunction id f) := by constructor <;> simp [Table.modifyFunction]
  ⟨hg, rfl, hg.closed h.types h.vars (forall_mem_modify h.functions hf) h.contexts h.globals⟩

theorem Closed.modifyContext (h : t.Closed) (id : ContextId) {f : Context → Context}
    (hf : ∀ x : Context, x.Within t → (f x).Within t) : t.Evolves (t.modifyContext id f) :=
  have hg : t.Grows (t.modifyContext id f) := by constructor <;> simp [Table.modifyContext]
  ⟨hg, rfl, hg.closed h.types h.vars h.functions (forall_mem_modify h.contexts hf) h.globals⟩

theorem grows_modifyGlobal (t : Table) (id : GlobalId) (f : Global → Global) :
    t.Grows (t.modifyGlobal id f) := by
  constructor <;> simp [Table.modifyGlobal]

theorem links_modifyGlobal {id : GlobalId} {f : Global → Global} {q : Option ShaderId → Option ShaderId}
    (h : ∀ x, (f x).shader = q x.shader) : (t.modifyGlobal id f).links = t.links.modify id.index q :=
  map_modify h _ _

theorem Closed.closed_modifyGlobal (h : t.Closed) (id : GlobalId) {f : Global → Global}
    (hf : ∀ x : Global, x.Within t → (f x).Within t) : (t.modifyGlobal id f).Closed :=
  (t.grows_modifyGlobal id f).closed h.types h.vars h.functions h.contexts
    (forall_mem_modify h.globals hf)

theorem Closed.modifyGlobal (h : t.Closed) (id : GlobalId) {f : Global → Global}
    (hf : ∀ x : Global, x.Within t → (f x).Within t) (hshader : ∀ x, (f x).shader = x.shader) :
    t.Evolves (t.modifyGlobal id f) :=
  ⟨t.grows_modifyGlobal id f, map_modify_of_eq hshader _ _, h.closed_modifyGlobal id hf⟩

theorem Closed.pushType (h : t.Closed) {info : TypeInfo} (hinfo : info.Within t) :
    t.Gives HasType (t.pushType info) :=
  have hg : t.Grows (t.pushType info).2 := by constructor <;> simp [Table.pushType]
  ⟨⟨hg, rfl, hg.closed (forall_mem_push h.types hinfo) h.vars h.functions h.contexts h.globals⟩,
    by simp [HasType, Table.pushType]⟩

theorem Closed.pushVariable (h : t.Closed) {v : Variable} (hv : v.Within t) :
    t.Evolves { t with vars := t.vars.push v } :=
  have hg : t.Grows { t with vars := t.vars.push v } := by constructor <;> simp
  ⟨hg, rfl, hg.closed h.types (forall_mem_push h.vars hv) h.functions h.contexts h.globals⟩

theorem Closed.pushFunction (h : t.Closed) {f : Function} (hf : f.Within t) :
    t.Evolves { t with functions := t.functions.push f } :=
  have hg : t.Grows { t with functions := t.functions.push f } := by constructor <;> simp
  ⟨hg, rfl, hg.closed h.types h.vars (forall_mem_push h.functions hf) h.contexts h.globals⟩

theorem Closed.pushContext (h : t.Closed) {c : Context} (hc : c.Within t) :
    t.Evolves { t with contexts := t.contexts.push c } :=
  have hg : t.Grows { t with contexts := t.contexts.push c } := by constructor <;> simp
  ⟨hg, rfl, hg.closed h.types h.vars h.functions (forall_mem_push h.contexts hc) h.globals⟩

/-! ### Variables -/

theorem Closed.createVariable (h : t.Closed) {type : TypeId} (htype : t.HasType type) (name : String)
    (semantics : Option String) : t.Gives HasVariable (t.createVariable type name semantics) :=
  ⟨h.pushVariable ⟨htype, by simp⟩, by simp [HasVariable, Table.createVariable]⟩

theorem Closed.setArraySize (h : t.Closed) (id : VariableId) (size : String) :
    t.Evolves (t.setArraySize id size) :=
  h.modifyVariable id fun _ hv => ⟨hv.type, hv.context⟩

theorem Closed.addVariable (h : t.Closed) {context : ContextId} {id : VariableId}
    (hcontext : t.HasContext context) (hid : t.HasVariable id) : t.Evolves (t.addVariable context id) := by
  have hlist : t.Evolves (t.modifyContext context fun c => { c with vars := c.vars ++ [id] }) :=
    h.modifyContext context fun c hc =>
      ⟨hc.upper, hc.contexts, by simpa [or_imp, forall_and] using ⟨hc.vars, hid⟩, hc.global⟩
  exact hlist.trans (hlist.closed.modifyVariable id fun v hv =>
    ⟨hv.type, by simpa using hlist.grows.hasContext hcontext⟩)

theorem Closed.addMember (h : t.Closed) (type : TypeId) {member : VariableId}
    (hmember : t.HasVariable member) : t.Evolves (t.addMember type member) :=
  h.modifyType type fun _ hinfo =>
    ⟨by simpa [or_imp, forall_and] using ⟨hinfo.members, hmember⟩, hinfo.element, hinfo.global⟩

theorem Closed.createVariables (h : t.Closed) {type : TypeId} (htype : t.HasType type)
    (names : List String) : t.Gives (fun t ids => ∀ id ∈ ids, t.HasVariable id)
      (t.createVariables type names) := by
  induction names generalizing t with
  | nil => exact ⟨h.refl, by simp [Table.createVariables]⟩
  | cons name names ih =>
    have hfirst := h.createVariable htype name none
    have hrest := ih hfirst.1.closed (hfirst.1.grows.hasType htype)
    refine ⟨hfirst.1.trans hrest.1, fun id hid => ?_⟩
    rcases List.mem_cons.mp hid with rfl | hid
    · exact hrest.1.grows.hasVariable hfirst.2
    · exact hrest.2 id hid

/-! ### Types -/

theorem Closed.type_within (h : t.Closed) {id : TypeId} {info : TypeInfo} (hi : t.typeAt? id = some info) :
    info.Within t :=
  h.types info (Array.mem_of_getElem? hi)

theorem Closed.global_within (h : t.Closed) {id : GlobalId} {g : Global} (hg : t.globalAt? id = some g) :
    g.Within t :=
  h.globals g (Array.mem_of_getElem? hg)

theorem Closed.hasType_of_findType (h : t.Closed) {global : GlobalId} {name : String} {id : TypeId}
    (hid : t.findType global name = some id) : t.HasType id := by
  obtain ⟨g, hg, hfind⟩ := Option.bind_eq_some_iff.mp hid
  exact (h.global_within hg).declaredTypes id (List.mem_of_find?_eq_some hfind)

section Types

variable (h : t.Closed) {global : GlobalId} (hglobal : t.HasGlobal global)

include h hglobal

theorem Closed.addType (name : String) : t.Gives HasType (t.addType global name) := by
  unfold Table.addType
  split
  · next id hid => exact ⟨h.refl, h.hasType_of_findType hid⟩
  · have hpush : t.Gives HasType (t.pushType { name, global }) :=
      h.pushType ⟨by simp, by simp, hglobal⟩
    have hlist := hpush.1.closed.modifyGlobal global
      (f := fun g => { g with declaredTypes := g.declaredTypes ++ [(t.pushType { name, global }).1] })
      (fun g hg => ⟨hg.context, by simpa [or_imp, forall_and] using ⟨hg.declaredTypes, hpush.2⟩,
        hg.functions⟩) fun _ => rfl
    exact ⟨hpush.1.trans hlist, hlist.grows.hasType hpush.2⟩

theorem Closed.addVector (scalar : String) (count : Nat) :
    t.Gives HasType (t.addVector global scalar count) := by
  unfold Table.addVector
  dsimp only
  split
  · next id hid => exact ⟨h.refl, h.hasType_of_findType hid⟩
  · have hscalar := h.addType hglobal scalar
    have hvector := hscalar.1.closed.addType (hscalar.1.grows.hasGlobal hglobal)
      (TypeShape.mk scalar count none).name
    have hmembers := hvector.1.closed.createVariables (hvector.1.grows.hasType hscalar.2)
      (componentNames.take count)
    have helement := hmembers.1.grows.hasType (hvector.1.grows.hasType hscalar.2)
    refine ⟨((hscalar.1.trans hvector.1).trans hmembers.1).trans (hmembers.1.closed.modifyType _
      fun info hinfo => ⟨hmembers.2, by simpa using helement, hinfo.global⟩), ?_⟩
    simpa [HasType, Table.modifyType] using hmembers.1.grows.hasType hvector.2

theorem Closed.addMatrix (scalar : String) (rows columns : Nat) :
    t.Gives HasType (t.addMatrix global scalar rows columns) := by
  unfold Table.addMatrix
  dsimp only
  split
  · next id hid => exact ⟨h.refl, h.hasType_of_findType hid⟩
  · have hscalar := h.addType hglobal scalar
    have hrow := Gives.after hscalar.1
      (hscalar.1.closed.addVector (hscalar.1.grows.hasGlobal hglobal) scalar columns)
    have hmatrix := hrow.1.closed.addType (hrow.1.grows.hasGlobal hglobal)
      (TypeShape.mk scalar rows (some columns)).name
    have helement := hmatrix.1.grows.hasType hrow.2
    refine ⟨(hrow.1.trans hmatrix.1).trans (hmatrix.1.closed.modifyType _ fun info hinfo =>
      ⟨hinfo.members, by simpa using helement, hinfo.global⟩), ?_⟩
    simpa [HasType, Table.modifyType] using hmatrix.2

theorem Closed.addShape (shape : TypeShape) : t.Gives HasType (t.addShape global shape) := by
  unfold Table.addShape
  split
  · exact h.addVector hglobal _ _
  · exact h.addMatrix hglobal _ _ _

theorem Closed.addBuiltin (name : String) : t.Evolves (t.addBuiltin global name) := by
  unfold Table.addBuiltin
  split_ifs
  · exact h.refl
  · split
    · exact (h.addShape hglobal _).1
    · exact (h.addType hglobal _).1

theorem Closed.resolveType (name : String) : t.Gives HasType (t.resolveType global name) := by
  unfold Table.resolveType
  split
  · next id hid => exact ⟨h.refl, h.hasType_of_findType hid⟩
  · split
    · exact h.addShape hglobal _
    · exact h.pushType ⟨by simp, by simp, hglobal⟩

end Types

/-! ### Contexts and functions -/

theorem Closed.context_within (h : t.Closed) {id : ContextId} {c : Context} (hc : t.contextAt? id = some c) :
    c.Within t :=
  h.contexts c (Array.mem_of_getElem? hc)

theorem Closed.function_within (h : t.Closed) {id : FunctionId} {f : Function}
    (hf : t.functionAt? id = some f) : f.Within t :=
  h.functions f (Array.mem_of_getElem? hf)

theorem HasContext.exists_context {id : ContextId} (h : t.HasContext id) :
    ∃ c, t.contextAt? id = some c :=
  ⟨t.contexts[id.index], Array.getElem?_eq_getElem h⟩

theorem Closed.createContext (h : t.Closed) {upper : ContextId} (hupper : t.HasContext upper) :
    t.Gives HasContext (t.createContext upper) := by
  obtain ⟨u, hu⟩ := hupper.exists_context
  unfold Table.createContext
  rw [hu]
  have hpush : t.Evolves
      { t with contexts := t.contexts.push { upper := some upper, global := u.global } } :=
    h.pushContext ⟨by simpa using hupper, by simp, by simp, (h.context_within hu).global⟩
  refine ⟨hpush.trans (hpush.closed.modifyContext upper fun c hc => ⟨hc.upper, ?_, hc.vars, hc.global⟩), ?_⟩
  · simpa [or_imp, forall_and, HasContext] using hc.contexts
  · simp [HasContext, Table.modifyContext]

theorem Closed.addFunction (h : t.Closed) {global : GlobalId} {returnType : TypeId}
    (hglobal : t.HasGlobal global) (htype : t.HasType returnType) (name : String)
    (semantics : Option String) : t.Gives HasFunction (t.addFunction global returnType name semantics) := by
  have hpush : t.Evolves
      { t with functions := t.functions.push { returnType, name, semantics, global } } :=
    h.pushFunction ⟨htype, by simp, hglobal, by simp⟩
  refine ⟨hpush.trans (hpush.closed.modifyGlobal global
    (fun g hg => ⟨hg.context, hg.declaredTypes, ?_⟩) fun _ => rfl), ?_⟩
  · simpa [or_imp, forall_and, HasFunction] using hg.functions
  · simp [HasFunction, Table.addFunction, Table.modifyGlobal]

theorem Closed.addParameter (h : t.Closed) (function : FunctionId) {parameter : VariableId}
    (hparameter : t.HasVariable parameter) : t.Evolves (t.addParameter function parameter) := by
  have hlist : t.Evolves (t.modifyFunction function fun f =>
      { f with parameters := f.parameters ++ [parameter] }) :=
    h.modifyFunction function fun f hf => ⟨hf.returnType,
      by simpa [or_imp, forall_and] using ⟨hf.parameters, hparameter⟩, hf.global, hf.body⟩
  unfold Table.addParameter
  dsimp only
  split
  · next body hbody =>
    obtain ⟨f, hf, hbody⟩ := Option.bind_eq_some_iff.mp hbody
    exact hlist.trans (hlist.closed.addVariable ((hlist.closed.function_within hf).body body hbody)
      (hlist.grows.hasVariable hparameter))
  · exact hlist

theorem mem_getD_nil_iff {α : Type} {list : Option (List α)} {x : α} :
    x ∈ list.getD [] ↔ ∃ xs, list = some xs ∧ x ∈ xs := by
  cases list <;> simp

theorem Closed.setBody (h : t.Closed) (function : FunctionId) {context : ContextId}
    (hcontext : t.HasContext context) : t.Evolves (t.setBody function context) := by
  have hbody : t.Evolves (t.modifyFunction function fun f => { f with body := some context }) :=
    h.modifyFunction function fun f hf => ⟨hf.returnType, hf.parameters, hf.global, by simpa using hcontext⟩
  refine hbody.trans (hbody.closed.foldl fun t' ht' parameter hparameter => ?_)
  obtain ⟨_, hids, hmem⟩ := mem_getD_nil_iff.mp hparameter
  obtain ⟨f, hf, rfl⟩ := Option.map_eq_some_iff.mp hids
  exact ht'.closed.addVariable (ht'.grows.hasContext (hbody.grows.hasContext hcontext))
    (ht'.grows.hasVariable ((hbody.closed.function_within hf).parameters parameter hmem))

/-! ### Importing a program -/

theorem mem_foldl_appendNew {α : Type} [DecidableEq α] {x : α} (ys : List α) {xs : List α}
    (h : x ∈ ys.foldl appendNew xs) : x ∈ xs ∨ x ∈ ys := by
  induction ys generalizing xs with
  | nil => exact Or.inl h
  | cons y ys ih =>
    rcases ih h with hx | hx
    · unfold appendNew at hx
      split_ifs at hx
      · exact Or.inl hx
      · simpa [or_assoc] using Or.inl hx
    · exact Or.inr (List.mem_cons_of_mem y hx)

theorem Closed.importType (h : t.Closed) (global : GlobalId) {id : TypeId} (hid : t.HasType id) :
    t.Evolves (importType global t id) := by
  unfold Table.importType
  split
  · exact h.refl
  · split_ifs
    · exact h.refl
    · exact h.modifyGlobal global (fun g hg => ⟨hg.context,
        by simpa [or_imp, forall_and] using ⟨hg.declaredTypes, hid⟩, hg.functions⟩) fun _ => rfl

theorem Closed.importGlobal (h : t.Closed) (global source : GlobalId) :
    t.Evolves (t.importGlobal global source) := by
  unfold Table.importGlobal
  split
  · exact h.refl
  next s hs =>
  have hsource := h.global_within hs
  have htypes : t.Evolves (s.declaredTypes.foldl (Table.importType global) t) :=
    h.foldl fun t' ht' id hid =>
      ht'.closed.importType global (ht'.grows.hasType (hsource.declaredTypes id hid))
  have hfunctions := htypes.trans (htypes.closed.modifyGlobal global
    (f := fun g => { g with functions := s.functions.foldl appendNew g.functions })
    (fun g hg => ⟨hg.context, hg.declaredTypes, fun id hid =>
      (mem_foldl_appendNew _ hid).elim (hg.functions id)
        fun hid => htypes.grows.hasFunction (hsource.functions id hid)⟩) fun _ => rfl)
  dsimp only
  split
  · exact hfunctions
  · refine hfunctions.trans (hfunctions.closed.modifyContext _ fun c hc =>
      ⟨hc.upper, hc.contexts, fun id hid => ?_, hc.global⟩)
    rcases mem_foldl_appendNew _ hid with hid | hid
    · exact hc.vars id hid
    · obtain ⟨_, hids, hmem⟩ := mem_getD_nil_iff.mp hid
      obtain ⟨k, hk, rfl⟩ := Option.map_eq_some_iff.mp hids
      exact hfunctions.grows.hasVariable ((h.context_within hk).vars id hmem)

/-! ### New programs -/

/-- A closed table that grew out of another one with one more program. -/
structure AddsProgram (t : Table) (shader : Option ShaderId) (t' : Table) : Prop where
  grows : t.Grows t'
  links : t'.links = t.links.push shader
  closed : t'.Closed

theorem AddsProgram.evolves {t'' : Table} {shader : Option ShaderId} (h : t.AddsProgram shader t')
    (h' : t'.Evolves t'') : t.AddsProgram shader t'' :=
  ⟨h.grows.trans h'.grows, h'.links.trans h.links, h'.closed⟩

theorem AddsProgram.hasGlobal {shader : Option ShaderId} (h : t.AddsProgram shader t') :
    t'.HasGlobal ⟨t.globals.size⟩ := by
  unfold HasGlobal
  rw [← size_links, ← size_links, h.links, Array.size_push]
  exact Nat.lt_succ_self _

/-- The table with a new program, in which nothing is declared. -/
def withProgram (t : Table) (v : Vocabulary) : Table :=
  { t with
    contexts := t.contexts.push { upper := none, global := ⟨t.globals.size⟩ }
    globals := t.globals.push { context := ⟨t.contexts.size⟩ }
    vectorScalars := addScalars t.vectorScalars v }

theorem Closed.withProgram (h : t.Closed) (v : Vocabulary) : t.AddsProgram none (t.withProgram v) := by
  have hgrows : t.Grows (t.withProgram v) := by constructor <;> simp [Table.withProgram]
  -- the context and the program refer to each other, so they come at once
  exact ⟨hgrows, Array.map_push, fun x hx => (h.types x hx).mono hgrows,
    fun x hx => (h.vars x hx).mono hgrows, fun x hx => (h.functions x hx).mono hgrows,
    forall_mem_push (fun x hx => (h.contexts x hx).mono hgrows)
      ⟨by simp, by simp, by simp, by simp [HasGlobal, Table.withProgram]⟩,
    forall_mem_push (fun x hx => (h.globals x hx).mono hgrows)
      ⟨by simp [HasContext, Table.withProgram], by simp, by simp⟩⟩

theorem Closed.createGlobal (h : t.Closed) (v : Vocabulary) :
    t.AddsProgram none (t.createGlobal v).2 := by
  have hnew := h.withProgram v
  exact hnew.evolves (hnew.closed.foldl fun t' ht' name _ =>
    ht'.closed.addBuiltin (ht'.grows.hasGlobal hnew.hasGlobal) name)

theorem AddsProgram.setShader {shader : Option ShaderId} (h : t.AddsProgram shader t')
    (other : Option ShaderId) : t.AddsProgram other (t'.setShader ⟨t.globals.size⟩ other) := by
  refine ⟨h.grows.trans (t'.grows_modifyGlobal _ _), ?_, h.closed.closed_modifyGlobal _ fun g hg =>
    ⟨hg.context, hg.declaredTypes, hg.functions⟩⟩
  rw [Table.setShader, links_modifyGlobal (q := fun _ => other) fun _ => rfl, h.links, ← size_links,
    modify_push_size]

/-! ### Declarations -/

/-- An operation on numbers of a table that declares something in its programs. -/
inductive Step : Table → Table → Prop where
  | createVariable {t : Table} {type : TypeId} (name : String) (semantics : Option String) :
    t.HasType type → Step t (t.createVariable type name semantics).2
  | setArraySize {t : Table} (id : VariableId) (size : String) : Step t (t.setArraySize id size)
  | addVariable {t : Table} {context : ContextId} {id : VariableId} :
    t.HasContext context → t.HasVariable id → Step t (t.addVariable context id)
  | addMember {t : Table} {type : TypeId} {member : VariableId} :
    t.HasType type → t.HasVariable member → Step t (t.addMember type member)
  | addType {t : Table} {global : GlobalId} (name : String) :
    t.HasGlobal global → Step t (t.addType global name).2
  | resolveType {t : Table} {global : GlobalId} (name : String) :
    t.HasGlobal global → Step t (t.resolveType global name).2
  | createContext {t : Table} {upper : ContextId} :
    t.HasContext upper → Step t (t.createContext upper).2
  | addFunction {t : Table} {global : GlobalId} {type : TypeId} (name : String)
    (semantics : Option String) : t.HasGlobal global → t.HasType type →
      Step t (t.addFunction global type name semantics).2
  | addParameter {t : Table} {function : FunctionId} {parameter : VariableId} :
    t.HasFunction function → t.HasVariable parameter → Step t (t.addParameter function parameter)
  | setBody {t : Table} {function : FunctionId} {context : ContextId} :
    t.HasFunction function → t.HasContext context → Step t (t.setBody function context)

/-- Operations one after the other. -/
def Steps : Table → Table → Prop :=
  Relation.ReflTransGen Step

theorem Step.single (h : Step t t') : Steps t t' :=
  Relation.ReflTransGen.single h

theorem Steps.trans {t'' : Table} (h : Steps t t') (h' : Steps t' t'') : Steps t t'' :=
  Relation.ReflTransGen.trans h h'

theorem Steps.tail {t'' : Table} (h : Steps t t') (h' : Step t' t'') : Steps t t'' :=
  Relation.ReflTransGen.tail h h'

theorem Step.evolves (h : Step t t') (hc : t.Closed) : t.Evolves t' := by
  cases h with
  | createVariable name semantics htype => exact (hc.createVariable htype name semantics).1
  | setArraySize id size => exact hc.setArraySize id size
  | addVariable hcontext hid => exact hc.addVariable hcontext hid
  | addMember _ hmember => exact hc.addMember _ hmember
  | addType name hglobal => exact (hc.addType hglobal name).1
  | resolveType name hglobal => exact (hc.resolveType hglobal name).1
  | createContext hupper => exact (hc.createContext hupper).1
  | addFunction name semantics hglobal htype => exact (hc.addFunction hglobal htype name semantics).1
  | addParameter _ hparameter => exact hc.addParameter _ hparameter
  | setBody _ hcontext => exact hc.setBody _ hcontext

/-- **Declarations keep a table closed**, its numbers and the links of its programs. -/
theorem Steps.evolves (h : Steps t t') (hc : t.Closed) : t.Evolves t' := by
  induction h with
  | refl => exact hc.refl
  | tail _ hstep ih => exact ih.trans (hstep.evolves ih.closed)

end Table

end Cg

end ShaderAssist

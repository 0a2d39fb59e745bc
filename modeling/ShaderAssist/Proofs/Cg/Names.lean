import ShaderAssist.Proofs.Cg.TypeEdits

/-!
# Names of types

A program finds a type by its name once a type with this name is declared in it. Operations on a table keep the
names of its types and what its programs declare (`Table.KeepsNames`), so a name that is found stays found
(`KeepsNames.findType`). A program that imports another one finds every name that the other one finds
(`isSome_findType_importGlobal`).
-/

namespace ShaderAssist

namespace Cg

namespace Table

variable {t t' t'' : Table} {x source : GlobalId} {name : String}

theorem isSome_findType_iff : (t.findType x name).isSome ↔ ∃ g, t.globalAt? x = some g ∧
    ∃ id ∈ g.declaredTypes, ∃ info, t.typeAt? id = some info ∧ info.name = name := by
  unfold findType
  rw [Option.isSome_bind]
  cases t.globalAt? x with
  | none => simp
  | some g => simp [typeNamed, Option.any_eq_true]

/-- Types keep their names, and programs what they declare. -/
structure KeepsNames (t t' : Table) : Prop where
  types : ∀ {id info}, t.typeAt? id = some info → ∃ info', t'.typeAt? id = some info' ∧ info'.name = info.name
  declared : ∀ {x g}, t.globalAt? x = some g →
    ∃ g', t'.globalAt? x = some g' ∧ g.declaredTypes ⊆ g'.declaredTypes

theorem KeepsNames.findType (h : t.KeepsNames t') (hx : (t.findType x name).isSome) :
    (t'.findType x name).isSome := by
  obtain ⟨g, hg, id, hid, info, hinfo, rfl⟩ := isSome_findType_iff.mp hx
  obtain ⟨g', hg', hsub⟩ := h.declared hg
  obtain ⟨info', hinfo', hname⟩ := h.types hinfo
  exact isSome_findType_iff.mpr ⟨g', hg', id, hsub hid, info', hinfo', hname⟩

theorem keepsNames_of_eq (htypes : t'.types = t.types) (hglobals : t'.globals = t.globals) :
    t.KeepsNames t' := by
  constructor
  · intro id info h
    exact ⟨info, by rw [typeAt?, htypes]; exact h, rfl⟩
  · intro x g h
    exact ⟨g, by rw [globalAt?, hglobals]; exact h, fun _ => id⟩

theorem KeepsNames.refl (t : Table) : t.KeepsNames t :=
  keepsNames_of_eq rfl rfl

theorem KeepsNames.trans (h : t.KeepsNames t') (h' : t'.KeepsNames t'') : t.KeepsNames t'' := by
  constructor
  · intro id info hinfo
    obtain ⟨info', hinfo', hname⟩ := h.types hinfo
    obtain ⟨info'', hinfo'', hname'⟩ := h'.types hinfo'
    exact ⟨info'', hinfo'', hname'.trans hname⟩
  · intro x g hg
    obtain ⟨g', hg', hsub⟩ := h.declared hg
    obtain ⟨g'', hg'', hsub'⟩ := h'.declared hg'
    exact ⟨g'', hg'', List.Subset.trans hsub hsub'⟩

theorem keepsNames_foldl {α : Type} {f : Table → α → Table} (h : ∀ (t : Table) a, t.KeepsNames (f t a))
    (as : List α) (t : Table) : t.KeepsNames (as.foldl f t) := by
  induction as generalizing t with
  | nil => exact .refl t
  | cons a as ih => exact (h t a).trans (ih (f t a))

/-! ### Operations keep names -/

theorem exists_getElem?_modify {α : Type} {r : α → α → Prop} {f : α → α} (hrefl : ∀ a, r a a)
    (hf : ∀ a, r a (f a)) {xs : Array α} (i : Nat) {j : Nat} {a : α} (h : xs[j]? = some a) :
    ∃ b, (xs.modify i f)[j]? = some b ∧ r a b := by
  rw [Array.getElem?_modify, h]
  split_ifs
  · exact ⟨f a, rfl, hf a⟩
  · exact ⟨a, rfl, hrefl a⟩

theorem getElem?_push_of_eq_some {α : Type} {xs : Array α} {j : Nat} {a : α} (h : xs[j]? = some a) (b : α) :
    (xs.push b)[j]? = some a := by
  obtain ⟨hlt, ha⟩ := Array.getElem?_eq_some_iff.mp h
  rw [Array.getElem?_push_lt hlt, ha]

theorem keepsNames_modifyType (t : Table) (id : TypeId) {f : TypeInfo → TypeInfo}
    (hf : ∀ info, (f info).name = info.name) : t.KeepsNames (t.modifyType id f) := by
  refine ⟨fun {_ info} h => ?_, fun {_ g} h => ⟨g, h, List.Subset.refl _⟩⟩
  exact exists_getElem?_modify (r := fun a b => b.name = a.name) (fun _ => rfl) hf id.index h

theorem keepsNames_modifyGlobal (t : Table) (x : GlobalId) {f : Global → Global}
    (hf : ∀ g, g.declaredTypes ⊆ (f g).declaredTypes) : t.KeepsNames (t.modifyGlobal x f) := by
  refine ⟨fun {_ info} h => ⟨info, h, rfl⟩, fun {_ g} h => ?_⟩
  exact exists_getElem?_modify (r := fun a b => a.declaredTypes ⊆ b.declaredTypes)
    (fun _ => List.Subset.refl _) hf x.index h

theorem keepsNames_pushType (t : Table) (info : TypeInfo) : t.KeepsNames (t.pushType info).2 :=
  ⟨fun {_ old} h => ⟨old, getElem?_push_of_eq_some h info, rfl⟩, fun {_ g} h => ⟨g, h, List.Subset.refl _⟩⟩

theorem TypeEdit.keepsNames (h : TypeEdit t t') : t.KeepsNames t' := by
  cases h with
  | pushType info => exact t.keepsNames_pushType info
  | declareType x id => exact t.keepsNames_modifyGlobal x fun g => List.subset_append_left _ _
  | modifyType id hf => exact t.keepsNames_modifyType id hf
  | createVariable type name semantics => exact keepsNames_of_eq rfl rfl

theorem TypeEdits.keepsNames (h : TypeEdits t t') : t.KeepsNames t' := by
  induction h with
  | refl => exact .refl t
  | tail _ hedit ih => exact ih.trans hedit.keepsNames

theorem keepsNames_addFunction (t : Table) (x : GlobalId) (type : TypeId) (name : String)
    (semantics : Option String) : t.KeepsNames (t.addFunction x type name semantics).2 := by
  let pushed : Table :=
    { t with functions := t.functions.push { returnType := type, name, semantics, global := x } }
  have hpush : t.KeepsNames pushed := keepsNames_of_eq rfl rfl
  refine hpush.trans (pushed.keepsNames_modifyGlobal x ?_)
  exact fun g => List.Subset.refl g.declaredTypes

theorem Step.keepsNames (h : Step t t') : t.KeepsNames t' := by
  cases h with
  | createVariable name semantics _ => exact keepsNames_of_eq rfl rfl
  | setArraySize id size => exact keepsNames_of_eq rfl rfl
  | addVariable _ _ => exact keepsNames_of_eq rfl rfl
  | addMember _ _ => exact keepsNames_modifyType _ _ fun _ => rfl
  | addType name _ => exact (t.typeEdits_addType _ name).keepsNames
  | resolveType name _ => exact (t.typeEdits_resolveType _ name).keepsNames
  | createContext _ =>
    unfold Table.createContext
    split
    · exact .refl t
    · exact keepsNames_of_eq rfl rfl
  | @addFunction global type name semantics _ _ => exact t.keepsNames_addFunction global type name semantics
  | addParameter _ _ =>
    unfold Table.addParameter
    dsimp only
    split <;> exact keepsNames_of_eq rfl rfl
  | @setBody function context _ _ =>
    have hbody : t.KeepsNames (t.modifyFunction function fun f => { f with body := some context }) :=
      keepsNames_of_eq rfl rfl
    have hstep (t : Table) (id : VariableId) : t.KeepsNames (t.addVariable context id) :=
      keepsNames_of_eq rfl rfl
    exact hbody.trans (keepsNames_foldl hstep _ _)

/-- **Declarations keep names.** -/
theorem Steps.keepsNames (h : Steps t t') : t.KeepsNames t' := by
  induction h with
  | refl => exact .refl t
  | tail _ hstep ih => exact ih.trans hstep.keepsNames

/-! ### Names of a new type, and of imported ones -/

/-- A type that is declared in a program is found by its name. -/
theorem isSome_findType_declareType {id : TypeId} {info : TypeInfo} (hid : t.typeAt? id = some info)
    (hx : t.HasGlobal x) : ((t.declareType x id).findType x info.name).isSome := by
  have hg : t.globalAt? x = some t.globals[x.index] := Array.getElem?_eq_getElem hx
  refine isSome_findType_iff.mpr ⟨{ t.globals[x.index] with
    declaredTypes := t.globals[x.index].declaredTypes ++ [id] }, ?_, id, ?_, info, hid, rfl⟩
  · rw [globalAt?, declareType, modifyGlobal, Array.getElem?_modify, if_pos rfl]
    exact congrArg (Option.map _) hg
  · exact List.mem_append_right _ List.mem_cons_self

theorem isSome_findType_addType (hx : t.HasGlobal x) (name : String) :
    ((t.addType x name).2.findType x name).isSome := by
  unfold addType
  split
  · next id hid => rw [hid, Option.isSome_some]
  · have hid : (t.pushType { name, global := x }).2.typeAt? (t.pushType { name, global := x }).1 =
        some { name, global := x } := Array.getElem?_push_size
    exact isSome_findType_declareType hid hx

theorem isSome_findType_importType {id : TypeId} {info : TypeInfo} (hid : t.typeAt? id = some info)
    (hx : t.HasGlobal x) : ((importType x t id).findType x info.name).isSome := by
  unfold importType
  rw [hid]
  dsimp only
  split_ifs with hfound
  · exact hfound
  · exact isSome_findType_declareType hid hx

theorem isSome_findType_foldl_importType {ids : List TypeId} {id : TypeId} {info : TypeInfo} (hmem : id ∈ ids)
    (hid : t.typeAt? id = some info) (hx : t.HasGlobal x) :
    ((ids.foldl (importType x) t).findType x info.name).isSome := by
  induction ids generalizing t info with
  | nil => exact absurd hmem List.not_mem_nil
  | cons first ids ih =>
    rw [List.foldl_cons]
    rcases List.mem_cons.mp hmem with rfl | hmem
    · exact (TypeEdits.foldl (typeEdits_importType x) ids _).keepsNames.findType (isSome_findType_importType hid hx)
    · have hkeeps := (typeEdits_importType x t first).keepsNames
      obtain ⟨info', hid', hname⟩ := hkeeps.types hid
      obtain ⟨g, hg, -⟩ := hkeeps.declared (Array.getElem?_eq_getElem hx)
      rw [← hname]
      exact ih hmem hid' (Array.getElem?_eq_some_iff.mp hg).1

/-- What is imported besides types has no part in names. -/
theorem keepsNames_imported (t : Table) (x : GlobalId) {s : Global} (hs : t.globalAt? source = some s) :
    (s.declaredTypes.foldl (importType x) t).KeepsNames (t.importGlobal x source) := by
  unfold importGlobal
  rw [hs]
  dsimp only
  have hfunctions := keepsNames_modifyGlobal (s.declaredTypes.foldl (importType x) t) x
    (f := fun g => { g with functions := s.functions.foldl appendNew g.functions })
    fun g => List.Subset.refl g.declaredTypes
  split
  · exact hfunctions
  · exact hfunctions.trans (keepsNames_of_eq rfl rfl)

theorem keepsNames_importGlobal (t : Table) (x source : GlobalId) : t.KeepsNames (t.importGlobal x source) := by
  rcases hs : t.globalAt? source with _ | s
  · unfold importGlobal
    rw [hs]
    exact .refl t
  · exact (TypeEdits.foldl (typeEdits_importType x) s.declaredTypes t).keepsNames.trans (t.keepsNames_imported x hs)

/-- **What an imported program finds** is found by the program that imports it. -/
theorem isSome_findType_importGlobal (hx : t.HasGlobal x) (hname : (t.findType source name).isSome) :
    ((t.importGlobal x source).findType x name).isSome := by
  obtain ⟨s, hs, id, hid, info, hinfo, rfl⟩ := isSome_findType_iff.mp hname
  exact (t.keepsNames_imported x hs).findType (isSome_findType_foldl_importType hid hinfo hx)

theorem isSome_findType_foldl_importGlobal {sources : List GlobalId} (hmem : source ∈ sources)
    (hx : t.HasGlobal x) (hname : (t.findType source name).isSome) :
    ((sources.foldl (fun t source => t.importGlobal x source) t).findType x name).isSome := by
  have hkeeps (t : Table) (source : GlobalId) : t.KeepsNames (t.importGlobal x source) :=
    t.keepsNames_importGlobal x source
  induction sources generalizing t with
  | nil => exact absurd hmem List.not_mem_nil
  | cons first sources ih =>
    rw [List.foldl_cons]
    rcases List.mem_cons.mp hmem with rfl | hmem
    · exact (keepsNames_foldl hkeeps sources _).findType (isSome_findType_importGlobal hx hname)
    · obtain ⟨g, hg, -⟩ := (hkeeps t first).declared (Array.getElem?_eq_getElem hx)
      exact ih hmem (Array.getElem?_eq_some_iff.mp hg).1 ((hkeeps t first).findType hname)

theorem keepsNames_createGlobal (t : Table) (v : Vocabulary) : t.KeepsNames (t.createGlobal v).2 := by
  have hnew : t.KeepsNames (t.withProgram v) :=
    ⟨fun {_ info} h => ⟨info, h, rfl⟩, fun {_ g} h => ⟨g, getElem?_push_of_eq_some h _, List.Subset.refl _⟩⟩
  exact hnew.trans (t.typeEdits_createGlobal v).keepsNames

end Table

end Cg

end ShaderAssist

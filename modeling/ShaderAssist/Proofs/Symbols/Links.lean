import Mathlib.Data.List.Nodup
import ShaderAssist.Proofs.Symbols.Changes

/-!
# Links between symbols

The symbols of a document refer to each other in both directions: a shader lists its sub shaders, and each
of them names its shader. The two directions agree (`Symbols.Linked`), for every document, match tree and
grammar (`ofMatched_linked`). Only the links matter for this (`Symbols.links`), so each change is first
described by what it does to the links; most changes do nothing to them.
-/

namespace ShaderAssist

/-! ### Items and their owners -/

section Owners

variable {ι κ : Type} [DecidableEq ι] [DecidableEq κ] {item : Nat → ι} {owner : Nat → κ}
  {lists : Array (List ι)} {owners : Array κ}

/-- The item `i` belongs to the owner `owners[i]`, which lists it once; no other owner lists it. -/
def ListedOnce (item : Nat → ι) (owner : Nat → κ) (lists : Array (List ι)) (owners : Array κ) : Prop :=
  ∀ ⦃i o⦄, owners[i]? = some o → ∀ ⦃k list⦄, lists[k]? = some list →
    list.count (item i) = if o = owner k then 1 else 0

/-- A new owner lists nothing yet. -/
theorem ListedOnce.pushOwner (h : ListedOnce item owner lists owners)
    (hnew : ∀ o ∈ owners, o ≠ owner lists.size) : ListedOnce item owner (lists.push []) owners := by
  intro i o ho k list hk
  rw [Array.getElem?_push] at hk
  split_ifs at hk with hnewest
  · obtain rfl := Option.some.inj hk
    rw [List.count_nil, hnewest, if_neg (hnew o (Array.mem_of_getElem? ho))]
  · exact h ho hk

/-- A new item is listed by its owner. -/
theorem ListedOnce.pushItem (h : ListedOnce item owner lists owners) (hitem : Function.Injective item)
    (howner : Function.Injective owner) (hnew : ∀ list ∈ lists, item owners.size ∉ list) (k : Nat) :
    ListedOnce item owner (lists.modify k (· ++ [item owners.size])) (owners.push (owner k)) := by
  intro i o ho j list hj
  rw [Array.getElem?_push] at ho
  rw [Array.getElem?_modify] at hj
  split_ifs at ho with hi
  · -- the new item
    obtain rfl := Option.some.inj ho
    rw [hi]
    split_ifs at hj with hkj
    · obtain ⟨old, hold, rfl⟩ := Option.map_eq_some_iff.mp hj
      rw [List.count_append, List.count_eq_zero.mpr (hnew old (Array.mem_of_getElem? hold)),
        List.count_singleton_self, if_pos (by rw [hkj])]
    · rw [List.count_eq_zero.mpr (hnew list (Array.mem_of_getElem? hj)),
        if_neg fun heq => hkj (howner heq)]
  · -- an item from before
    split_ifs at hj
    · obtain ⟨old, hold, rfl⟩ := Option.map_eq_some_iff.mp hj
      have hne : item i ∉ [item owners.size] := by simpa using hitem.ne hi
      rw [List.count_append, List.count_eq_zero.mpr hne, h ho hold, Nat.add_zero]
    · exact h ho hj

end Owners

/-- One more element in one of some lists. -/
theorem count_flatMap_modify {α β : Type} [DecidableEq β] {p : α → List β} {f : α → α} {b : β}
    (h : ∀ x, p (f x) = p x ++ [b]) {xs : Array α} {i : Nat} (hi : i < xs.size) (c : β) :
    ((xs.modify i f).toList.flatMap p).count c = (xs.toList.flatMap p).count c + [b].count c := by
  suffices hlist : ∀ (l : List α) (i : Nat), i < l.length →
      ((l.modify i f).flatMap p).count c = (l.flatMap p).count c + [b].count c by
    rw [Array.toList_modify]
    exact hlist _ i (by simpa using hi)
  intro l
  induction l with
  | nil => exact fun i hi => absurd hi (Nat.not_lt_zero i)
  | cons x l ih =>
    intro i hi
    cases i with
    | zero =>
      rw [List.modify_zero_cons, List.flatMap_cons, List.flatMap_cons, h, List.count_append,
        List.count_append, List.count_append]
      omega
    | succ i =>
      rw [List.modify_succ_cons, List.flatMap_cons, List.flatMap_cons, List.count_append, List.count_append,
        ih i (Nat.lt_of_succ_lt_succ hi), Nat.add_assoc]

namespace Symbols

/-! ### Links -/

/-- How symbols refer to each other, in both directions. -/
@[ext]
structure Links where
  /-- The sub shaders of each shader, and the shader of each sub shader. -/
  subShaders : Array (List SubShaderId)
  shader : Array ShaderId
  /-- The passes of each sub shader, and the sub shader of each pass. -/
  passes : Array (List PassId)
  subShader : Array SubShaderId
  /-- The programs of all shaders, sub shaders and passes. -/
  programs : List Cg.GlobalId
  /-- The include blocks of each shader. -/
  includes : Array (List Cg.GlobalId)
  /-- The shader of each program. -/
  programShader : Array (Option ShaderId)

/-- The programs of all shaders, sub shaders and passes. -/
def programs (s : Symbols) : List Cg.GlobalId :=
  s.shaders.toList.flatMap Shader.programs ++ s.subShaders.toList.flatMap SubShader.programs ++
    s.passes.toList.flatMap Pass.programs

/-- The links between the symbols of a document. -/
def links (s : Symbols) : Links where
  subShaders := s.shaders.map Shader.subShaders
  shader := s.subShaders.map SubShader.shader
  passes := s.subShaders.map SubShader.passes
  subShader := s.passes.map Pass.subShader
  programs := s.programs
  includes := s.shaders.map Shader.includes
  programShader := s.cg.links

/-- The two directions of the links agree. -/
structure Links.Agree (l : Links) : Prop where
  subShaders : ListedOnce SubShaderId.mk ShaderId.mk l.subShaders l.shader
  passes : ListedOnce PassId.mk SubShaderId.mk l.passes l.subShader
  programs : ∀ ⦃i : Nat⦄ ⦃shader : Option ShaderId⦄, l.programShader[i]? = some shader →
    l.programs.count ⟨i⟩ = if shader.isSome then 1 else 0
  includes : ∀ ⦃k : Nat⦄ ⦃list : List Cg.GlobalId⦄, l.includes[k]? = some list → list.Nodup ∧
    ∀ id ∈ list, l.programShader[id.index]? = some (some ⟨k⟩)

/-- What is listed is there, and so is what is named as an owner. -/
structure Links.InRange (l : Links) : Prop where
  subShaders : ∀ list ∈ l.subShaders, ∀ id ∈ list, id.index < l.shader.size
  shader : ∀ id ∈ l.shader, id.index < l.subShaders.size
  passes : ∀ list ∈ l.passes, ∀ id ∈ list, id.index < l.subShader.size
  subShader : ∀ id ∈ l.subShader, id.index < l.passes.size
  programs : ∀ id ∈ l.programs, id.index < l.programShader.size
  includes : ∀ list ∈ l.includes, ∀ id ∈ list, id.index < l.programShader.size

namespace Links

variable {l : Links}

theorem Agree.pushShader (h : l.Agree) (hr : l.InRange) :
    { l with subShaders := l.subShaders.push [], includes := l.includes.push [] }.Agree := by
  refine ⟨h.subShaders.pushOwner fun o ho heq => ?_, h.passes, h.programs, fun k list hlist => ?_⟩
  · exact absurd (hr.shader o ho) (by simp [heq])
  · rw [Array.getElem?_push] at hlist
    split_ifs at hlist
    · obtain rfl := Option.some.inj hlist
      exact ⟨List.nodup_nil, by simp⟩
    · exact h.includes hlist

theorem Agree.pushSubShader (h : l.Agree) (hr : l.InRange) (k : ShaderId) :
    { l with
      subShaders := l.subShaders.modify k.index (· ++ [SubShaderId.mk l.shader.size])
      shader := l.shader.push k
      passes := l.passes.push [] }.Agree := by
  have hfresh : ∀ list ∈ l.subShaders, SubShaderId.mk l.shader.size ∉ list := fun list hlist hmem =>
    Nat.lt_irrefl _ (hr.subShaders list hlist _ hmem)
  refine ⟨h.subShaders.pushItem ?_ ?_ hfresh k.index, h.passes.pushOwner fun o ho heq => ?_, h.programs,
    h.includes⟩
  · exact fun _ _ => congrArg SubShaderId.index
  · exact fun _ _ => congrArg ShaderId.index
  · exact absurd (hr.subShader o ho) (by simp [heq])

theorem Agree.pushPass (h : l.Agree) (hr : l.InRange) (k : SubShaderId) :
    { l with
      passes := l.passes.modify k.index (· ++ [PassId.mk l.subShader.size])
      subShader := l.subShader.push k }.Agree := by
  have hfresh : ∀ list ∈ l.passes, PassId.mk l.subShader.size ∉ list := fun list hlist hmem =>
    Nat.lt_irrefl _ (hr.passes list hlist _ hmem)
  refine ⟨h.subShaders, h.passes.pushItem ?_ ?_ hfresh k.index, h.programs, h.includes⟩
  · exact fun _ _ => congrArg PassId.index
  · exact fun _ _ => congrArg SubShaderId.index

/-- A new program is listed once if it is linked to a shader, and else not at all. -/
theorem Agree.pushProgram (h : l.Agree) (hr : l.InRange) {shader : Option ShaderId}
    {programs : List Cg.GlobalId} (hprograms : ∀ id, programs.count id = l.programs.count id +
      if shader.isSome then [(⟨l.programShader.size⟩ : Cg.GlobalId)].count id else 0) :
    { l with programs := programs, programShader := l.programShader.push shader }.Agree := by
  refine ⟨h.subShaders, h.passes, fun i x hx => ?_, fun k list hlist => ?_⟩
  · rw [Array.getElem?_push] at hx
    split_ifs at hx with hi
    · obtain rfl := Option.some.inj hx
      have hnew : (⟨l.programShader.size⟩ : Cg.GlobalId) ∉ l.programs :=
        fun hmem => Nat.lt_irrefl _ (hr.programs _ hmem)
      rw [hprograms, hi, List.count_eq_zero.mpr hnew, List.count_singleton_self, Nat.zero_add]
    · have hne : (⟨i⟩ : Cg.GlobalId) ∉ [(⟨l.programShader.size⟩ : Cg.GlobalId)] := by simpa using hi
      rw [hprograms, List.count_eq_zero.mpr hne, ite_self, Nat.add_zero, h.programs hx]
  · obtain ⟨hnodup, hshader⟩ := h.includes hlist
    refine ⟨hnodup, fun id hid => ?_⟩
    rw [Array.getElem?_push, if_neg, hshader id hid]
    exact Nat.ne_of_lt (hr.includes list (Array.mem_of_getElem? hlist) id hid)

/-- A new include block is listed by the shader that it is linked to. -/
theorem Agree.addInclude (h : l.Agree) {k : ShaderId} {program : Cg.GlobalId}
    (hshader : l.programShader[program.index]? = some (some k))
    (hnew : ∀ list ∈ l.includes, program ∉ list) :
    { l with includes := l.includes.modify k.index (· ++ [program]) }.Agree := by
  refine ⟨h.subShaders, h.passes, h.programs, fun j list hlist => ?_⟩
  rw [Array.getElem?_modify] at hlist
  split_ifs at hlist with hj
  · obtain ⟨old, hold, rfl⟩ := Option.map_eq_some_iff.mp hlist
    obtain ⟨hnodup, hold'⟩ := h.includes hold
    refine ⟨List.nodup_append.mpr ⟨hnodup, List.nodup_singleton _, ?_⟩, fun id hid => ?_⟩
    · rintro a ha b hb rfl
      rw [List.mem_singleton.mp hb] at ha
      exact hnew old (Array.mem_of_getElem? hold) ha
    · rcases List.mem_append.mp hid with hid | hid
      · exact hold' id hid
      · rw [List.mem_singleton.mp hid, hshader, ← hj]
  · exact h.includes hlist

end Links

variable {s s' : Symbols} {t : MatchTree} {node : NodeId}

theorem programs_eq (s : Symbols) : s.programs = (s.shaders.map Shader.programs).toList.flatten ++
    (s.subShaders.map SubShader.programs).toList.flatten ++
    (s.passes.map Pass.programs).toList.flatten := by
  simp [programs, List.flatMap_def]

/-! ### What changes do to the links -/

theorem links_setState (s : Symbols) (node : NodeId) (symbol : Symbol) :
    (s.setState node symbol).links = s.links :=
  rfl

theorem links_modifyShader {f : Shader → Shader} {a : List SubShaderId → List SubShaderId}
    {b : List Cg.GlobalId → List Cg.GlobalId} (hsubShaders : ∀ x, (f x).subShaders = a x.subShaders)
    (hincludes : ∀ x, (f x).includes = b x.includes) (k : ShaderId) : (s.modifyShader k f).links =
      { s.links with
        subShaders := s.links.subShaders.modify k.index a
        includes := s.links.includes.modify k.index b
        programs := (s.modifyShader k f).programs } :=
  Links.ext (map_modify hsubShaders _ _) rfl rfl rfl rfl (map_modify hincludes _ _) rfl

theorem links_modifySubShader {f : SubShader → SubShader} {a : List PassId → List PassId}
    (hshader : ∀ x, (f x).shader = x.shader) (hpasses : ∀ x, (f x).passes = a x.passes) (k : SubShaderId) :
    (s.modifySubShader k f).links =
      { s.links with
        passes := s.links.passes.modify k.index a
        programs := (s.modifySubShader k f).programs } :=
  Links.ext rfl (map_modify_of_eq hshader _ _) (map_modify hpasses _ _) rfl rfl rfl rfl

theorem links_modifyPass {f : Pass → Pass} (hsubShader : ∀ x, (f x).subShader = x.subShader) (k : PassId) :
    (s.modifyPass k f).links = { s.links with programs := (s.modifyPass k f).programs } :=
  Links.ext rfl rfl rfl (map_modify_of_eq hsubShader _ _) rfl rfl rfl

theorem programs_modifyShader {f : Shader → Shader} (hf : ∀ x, (f x).programs = x.programs) (k : ShaderId) :
    (s.modifyShader k f).programs = s.programs := by
  simp only [programs_eq, modifyShader, map_modify_of_eq hf]

theorem programs_modifySubShader {f : SubShader → SubShader} (hf : ∀ x, (f x).programs = x.programs)
    (k : SubShaderId) : (s.modifySubShader k f).programs = s.programs := by
  simp only [programs_eq, modifySubShader, map_modify_of_eq hf]

theorem programs_modifyPass {f : Pass → Pass} (hf : ∀ x, (f x).programs = x.programs) (k : PassId) :
    (s.modifyPass k f).programs = s.programs := by
  simp only [programs_eq, modifyPass, map_modify_of_eq hf]

theorem links_editShader {f : Shader → Shader} (hf : s.EditsShader f) (k : ShaderId) :
    (s.modifyShader k f).links = s.links := by
  rw [links_modifyShader (a := id) (b := id) hf.subShaders hf.includes, modify_id, modify_id,
    programs_modifyShader hf.programs]
  rfl

theorem links_editSubShader {f : SubShader → SubShader} (hf : EditsSubShader f) (k : SubShaderId) :
    (s.modifySubShader k f).links = s.links := by
  rw [links_modifySubShader (a := id) hf.shader hf.passes, modify_id, programs_modifySubShader hf.programs]
  rfl

theorem links_editPass {f : Pass → Pass} (hf : EditsPass f) (k : PassId) :
    (s.modifyPass k f).links = s.links := by
  rw [links_modifyPass hf.subShader, programs_modifyPass hf.programs]
  rfl

theorem links_withCg (s : Symbols) (cg : Cg.Table) :
    { s with cg := cg }.links = { s.links with programShader := cg.links } :=
  rfl

theorem links_addShader (s : Symbols) (name : String) : (s.addShader name).2.links =
    { s.links with
      subShaders := s.links.subShaders.push []
      includes := s.links.includes.push [] } := by
  simp [links, addShader, programs]

theorem links_addSubShader (s : Symbols) (k : ShaderId) : (s.addSubShader k).2.links =
    { s.links with
      subShaders := s.links.subShaders.modify k.index (· ++ [⟨s.links.shader.size⟩])
      shader := s.links.shader.push k
      passes := s.links.passes.push [] } := by
  have hprograms : { s with subShaders := s.subShaders.push { shader := k } }.programs = s.programs := by
    simp [programs]
  have hpush : { s with subShaders := s.subShaders.push { shader := k } }.links =
      { s.links with shader := s.links.shader.push k, passes := s.links.passes.push [] } :=
    Links.ext rfl Array.map_push Array.map_push rfl hprograms rfl rfl
  have hsize : s.links.shader.size = s.subShaders.size := Array.size_map
  unfold addSubShader
  dsimp only
  rw [links_modifyShader (a := (· ++ [⟨s.subShaders.size⟩])) (b := id), programs_modifyShader, hprograms,
    hpush, modify_id, hsize]
  · rfl
  all_goals exact fun _ => rfl

theorem links_addPass (s : Symbols) (k : SubShaderId) : (s.addPass k).2.links =
    { s.links with
      passes := s.links.passes.modify k.index (· ++ [⟨s.links.subShader.size⟩])
      subShader := s.links.subShader.push k } := by
  have hprograms : { s with passes := s.passes.push { subShader := k } }.programs = s.programs := by
    simp [programs]
  have hpush : { s with passes := s.passes.push { subShader := k } }.links =
      { s.links with subShader := s.links.subShader.push k } :=
    Links.ext rfl rfl rfl Array.map_push hprograms rfl rfl
  have hsize : s.links.subShader.size = s.passes.size := Array.size_map
  unfold addPass
  dsimp only
  rw [links_modifySubShader (a := (· ++ [⟨s.passes.size⟩])), programs_modifySubShader, hprograms, hpush,
    hsize]
  · rfl
  all_goals exact fun _ => rfl

/-- A new program of a shader, sub shader or pass is one more program, and nothing else. -/
theorem links_addProgram (s : Symbols) (program : Cg.GlobalId) (shader : Option ShaderId)
    (block : Option RenderBlock) : (s.addProgram program shader block).links =
      { s.links with programs := (s.addProgram program shader block).programs } := by
  unfold addProgram
  split
  · apply links_modifyPass
    exact fun _ => rfl
  · rw [links_modifySubShader (a := id), modify_id]
    all_goals exact fun _ => rfl
  · split
    · rw [links_modifyShader (a := id) (b := id), modify_id, modify_id]
      all_goals exact fun _ => rfl
    · rfl

theorem count_programs (s : Symbols) (id : Cg.GlobalId) : s.programs.count id =
    (s.shaders.toList.flatMap Shader.programs).count id +
      (s.subShaders.toList.flatMap SubShader.programs).count id +
      (s.passes.toList.flatMap Pass.programs).count id := by
  rw [programs, List.count_append, List.count_append]

theorem count_programs_addProgram {program : Cg.GlobalId} {shader : Option ShaderId}
    {block : Option RenderBlock} (hblock : ∀ b ∈ block, b.Within s ∧ shader.isSome)
    (hshader : ∀ k ∈ shader, s.HasShader k) (id : Cg.GlobalId) :
    (s.addProgram program shader block).programs.count id =
      s.programs.count id + if shader.isSome then [program].count id else 0 := by
  unfold addProgram
  split
  · obtain ⟨hk, hsome⟩ := hblock _ rfl
    simp only [count_programs, modifyPass]
    rw [if_pos hsome, count_flatMap_modify (fun _ => rfl) hk]
    omega
  · obtain ⟨hk, hsome⟩ := hblock _ rfl
    simp only [count_programs, modifySubShader]
    rw [if_pos hsome, count_flatMap_modify (fun _ => rfl) hk]
    omega
  · split
    · have hk := hshader _ rfl
      simp only [count_programs, modifyShader]
      rw [if_pos Option.isSome_some, count_flatMap_modify (fun _ => rfl) hk]
      omega
    · rfl

/-! ### What is around the node of a program -/

theorem shaderOfSubShader?_eq (s : Symbols) (id : SubShaderId) :
    s.shaderOfSubShader? id = s.links.shader[id.index]? := by
  simp [links, shaderOfSubShader?, subShaderAt?]

theorem subShaderOfPass?_eq (s : Symbols) (id : PassId) :
    s.subShaderOfPass? id = s.links.subShader[id.index]? := by
  simp [links, subShaderOfPass?, passAt?]

theorem HasSubShader.isSome_shader {id : SubShaderId} (h : s.HasSubShader id) :
    (s.shaderOfSubShader? id).isSome := by
  rw [shaderOfSubShader?, subShaderAt?, Array.getElem?_eq_getElem h]
  rfl

/-- A sub shader or pass around a node is in a shader around the node. -/
theorem InRange.isSome_shaderAround (h : s.InRange) {b : RenderBlock}
    (hb : s.renderBlockAround? t node = some b) : (s.shaderAround? t node).isSome := by
  obtain ⟨id, hid, hf⟩ := List.exists_of_findSome?_eq_some hb
  obtain ⟨symbol, hsymbol, hf⟩ := Option.bind_eq_some_iff.mp hf
  refine List.findSome?_isSome_iff.mpr ⟨id, hid, ?_⟩
  rw [hsymbol, Option.bind_some]
  have hw := h.within_state hsymbol
  cases symbol with
  | subShader k => exact HasSubShader.isSome_shader hw
  | pass k =>
    obtain ⟨x, hx⟩ : ∃ x, s.passAt? k = some x := ⟨_, Array.getElem?_eq_getElem hw⟩
    have hsub : s.subShaderOfPass? k = some x.subShader := congrArg (Option.map Pass.subShader) hx
    change ((s.subShaderOfPass? k).bind s.shaderOfSubShader?).isSome
    rw [hsub, Option.bind_some]
    exact HasSubShader.isSome_shader (h.hasSubShader_of_pass hsub)
  | _ => exact nomatch hf

/-- The shader around a node depends on the symbols of nodes and the links upwards only. -/
theorem shaderAround?_congr (hstates : s'.states = s.states) (hshader : s'.links.shader = s.links.shader)
    (hsubShader : s'.links.subShader = s.links.subShader) :
    s'.shaderAround? t node = s.shaderAround? t node := by
  have hup : s'.shaderOfSubShader? = s.shaderOfSubShader? := by
    funext id
    rw [shaderOfSubShader?_eq, shaderOfSubShader?_eq, hshader]
  have hup' : s'.subShaderOfPass? = s.subShaderOfPass? := by
    funext id
    rw [subShaderOfPass?_eq, subShaderOfPass?_eq, hsubShader]
  unfold shaderAround? find state?
  rw [hstates, hup, hup']

/-! ### Links agree -/

theorem InRange.links_inRange (h : s.InRange) : s.links.InRange := by
  have hglobals : s.links.programShader.size = s.cg.globals.size := Cg.Table.size_links s.cg
  constructor
  · intro list hlist id hid
    obtain ⟨x, hx, rfl⟩ := Array.mem_map.mp hlist
    exact Nat.lt_of_lt_of_eq ((h.shaders x hx).subShaders id hid) Array.size_map.symm
  · intro id hid
    obtain ⟨x, hx, rfl⟩ := Array.mem_map.mp hid
    exact Nat.lt_of_lt_of_eq (h.subShaders x hx).shader Array.size_map.symm
  · intro list hlist id hid
    obtain ⟨x, hx, rfl⟩ := Array.mem_map.mp hlist
    exact Nat.lt_of_lt_of_eq ((h.subShaders x hx).passes id hid) Array.size_map.symm
  · intro id hid
    obtain ⟨x, hx, rfl⟩ := Array.mem_map.mp hid
    exact Nat.lt_of_lt_of_eq (h.passes x hx).subShader Array.size_map.symm
  · intro id hid
    rw [hglobals]
    rcases List.mem_append.mp hid with hid | hid
    · rcases List.mem_append.mp hid with hid | hid
      · obtain ⟨x, hx, hid⟩ := List.mem_flatMap.mp hid
        exact (h.shaders x (Array.mem_toList_iff.mp hx)).programs id hid
      · obtain ⟨x, hx, hid⟩ := List.mem_flatMap.mp hid
        exact (h.subShaders x (Array.mem_toList_iff.mp hx)).programs id hid
    · obtain ⟨x, hx, hid⟩ := List.mem_flatMap.mp hid
      exact (h.passes x (Array.mem_toList_iff.mp hx)).programs id hid
  · intro list hlist id hid
    obtain ⟨x, hx, rfl⟩ := Array.mem_map.mp hlist
    exact Nat.lt_of_lt_of_eq ((h.shaders x hx).includes id hid) hglobals.symm

variable {m : MatchedDocument} {v : Vocabulary}

/-- The links after a new program, which is the last one and is linked to the shader around it. -/
structure ProgramAdded (m : MatchedDocument) (node : NodeId) (s : Symbols)
    (answer : Cg.GlobalId × Symbols) : Prop where
  agree : answer.2.links.Agree
  program : answer.2.links.programShader[answer.1.index]? = some (s.shaderAround? m.tree node)
  includes : ∀ list ∈ answer.2.links.includes, answer.1 ∉ list
  shaderAround : answer.2.shaderAround? m.tree node = s.shaderAround? m.tree node

theorem InRange.links_createProgram (h : s.InRange) (m : MatchedDocument) (v : Vocabulary)
    (node : NodeId) : (s.createProgram m v node).2.links =
      { s.links with
        programs := (s.createProgram m v node).2.programs
        programShader := s.links.programShader.push (s.shaderAround? m.tree node) } := by
  obtain ⟨cg, hcg, heq⟩ := h.createProgram m v node
  rw [heq, links_addProgram, links_withCg, hcg.links]
  rfl

theorem Links.Agree.createProgram (ha : s.links.Agree) (h : s.InRange) (m : MatchedDocument)
    (v : Vocabulary) (node : NodeId) : ProgramAdded m node s (s.createProgram m v node) := by
  obtain ⟨cg, hcg, heq⟩ := h.createProgram m v node
  have hlinks := h.links_createProgram m v node
  have hsize : s.links.programShader.size = s.cg.globals.size := Cg.Table.size_links s.cg
  rw [heq] at hlinks ⊢
  refine ⟨?_, ?_, ?_, ?_⟩
  · rw [hlinks]
    refine ha.pushProgram h.links_inRange fun id => ?_
    rw [hsize]
    refine count_programs_addProgram (fun b hb => ?_) (fun k hk => (h.withProgram hcg).shaderAround hk) id
    exact ⟨(h.withProgram hcg).renderBlockAround hb, h.isSome_shaderAround hb⟩
  · rw [hlinks, ← hsize]
    exact Array.getElem?_push_size
  · rw [hlinks]
    intro list hlist hmem
    have := h.links_inRange.includes list hlist _ hmem
    rw [hsize] at this
    exact Nat.lt_irrefl _ this
  · refine shaderAround?_congr ?_ ?_ ?_
    · rw [states_addProgram]
    · rw [hlinks]
    · rw [hlinks]

theorem Links.Agree.collectInclude (ha : s.links.Agree) (h : s.InRange) :
    (s.collectInclude m v node).links.Agree := by
  have hadded := ha.createProgram h m v node
  unfold Symbols.collectInclude
  dsimp only
  rw [hadded.shaderAround, links_setState]
  rcases hk : s.shaderAround? m.tree node with _ | k
  · exact hadded.agree
  · dsimp only
    rw [links_modifyShader (a := id) (b := (· ++ [(s.createProgram m v node).1])), modify_id,
      programs_modifyShader]
    · exact hadded.agree.addInclude (hadded.program.trans (congrArg some hk)) hadded.includes
    all_goals exact fun _ => rfl

/-- **Changes keep the two directions of the links in agreement.** -/
theorem Change.agree {c : Collector} {s s' : Symbols} (hc : Change m v node c s s') (h : s.InRange)
    (ha : s.links.Agree) : s'.links.Agree := by
  cases hc with
  | shader name =>
    rw [links_setState, links_addShader]
    exact ha.pushShader h.links_inRange
  | subShader hk =>
    rw [links_setState, links_addSubShader]
    exact ha.pushSubShader h.links_inRange _
  | pass hk =>
    rw [links_setState, links_addPass]
    exact ha.pushPass h.links_inRange _
  | editShader k _ hf =>
    rw [links_editShader hf]
    exact ha
  | editSubShader k _ hf =>
    rw [links_editSubShader hf]
    exact ha
  | editPass k _ hf =>
    rw [links_editPass hf]
    exact ha
  | program => exact (ha.createProgram h m v node).agree
  | includeBlock => exact ha.collectInclude h
  | declare _ hsteps =>
    rw [links_withCg, (hsteps.evolves h.cg).links]
    exact ha
  | declareAt _ hsteps _ =>
    rw [links_setState, links_withCg, (hsteps.evolves h.cg).links]
    exact ha

theorem agree_empty : ({} : Symbols).links.Agree := by
  constructor
  · intro i o ho
    simp [links] at ho
  · intro i o ho
    simp [links] at ho
  · intro i shader hi
    simp [links, Cg.Table.links] at hi
  · intro k list hk
    simp [links] at hk

theorem agree_after (m : MatchedDocument) (v : Vocabulary) (done : List (NodeId × Collector)) :
    (after m v done).links.Agree :=
  after_induction (P := fun _ s => s.links.Agree) agree_empty (fun _ ha => ha)
    (fun hr hc ha => (change_of_collect? hr hc).agree hr ha) done

/-- **Every matched document has symbols whose links agree.** -/
theorem agree_ofMatched (g : CompiledGrammar) : (ofMatched m v g).links.Agree :=
  agree_after m v (plan g m.tree)

/-! ### What is recorded -/

/-- The number of runs of a collector. -/
def runsOf (c : Collector) (done : List (NodeId × Collector)) : Nat :=
  (done.map Prod.snd).count c

theorem runsOf_append (c c' : Collector) (node : NodeId) (done : List (NodeId × Collector)) :
    runsOf c (done ++ [(node, c')]) = runsOf c done + if c' = c then 1 else 0 := by
  simp [runsOf, List.count_singleton]

/-- There is a shader for every run that records one, and a program for every run that records one. -/
structure Records (done : List (NodeId × Collector)) (s : Symbols) : Prop where
  shaders : s.shaders.size = runsOf .shader done
  globals : s.cg.globals.size = runsOf .program done + runsOf .includeBlock done

/-- The collectors that record neither a shader nor a program. -/
def IsMinor (c : Collector) : Prop :=
  c ≠ .shader ∧ c ≠ .program ∧ c ≠ .includeBlock

theorem Records.keep {done : List (NodeId × Collector)} (h : Records done s) {c : Collector}
    (hc : IsMinor c) (hs : s'.shaders.size = s.shaders.size)
    (hg : s'.cg.globals.size = s.cg.globals.size) : Records (done ++ [(node, c)]) s' := by
  constructor
  · rw [runsOf_append, if_neg hc.1, hs, h.shaders]
    rfl
  · rw [runsOf_append, runsOf_append, if_neg hc.2.1, if_neg hc.2.2, hg, h.globals]
    rfl

theorem isMinor_of_isDetail {c : Collector} (h : isDetail c) : IsMinor c := by
  refine ⟨?_, ?_, ?_⟩ <;> rintro rfl <;> exact nomatch h

theorem isMinor_of_isDeclaration {c : Collector} (h : isDeclaration c) : IsMinor c := by
  refine ⟨?_, ?_, ?_⟩ <;> rintro rfl <;> exact nomatch h

/-- A new program is one more program, and no shader. -/
theorem InRange.sizes_createProgram (h : s.InRange) (m : MatchedDocument) (v : Vocabulary)
    (node : NodeId) : (s.createProgram m v node).2.shaders.size = s.shaders.size ∧
      (s.createProgram m v node).2.cg.globals.size = s.cg.globals.size + 1 := by
  have hlinks := h.links_createProgram m v node
  constructor
  · simpa [Symbols.links] using congrArg (fun l => l.subShaders.size) hlinks
  · simpa [Symbols.links, Cg.Table.links] using congrArg (fun l => l.programShader.size) hlinks

theorem sizes_collectInclude (s : Symbols) (m : MatchedDocument) (v : Vocabulary) (node : NodeId) :
    (s.collectInclude m v node).shaders.size = (s.createProgram m v node).2.shaders.size ∧
      (s.collectInclude m v node).cg = (s.createProgram m v node).2.cg := by
  unfold collectInclude
  dsimp only
  split
  · exact ⟨Array.size_modify, rfl⟩
  · exact ⟨rfl, rfl⟩

theorem Change.records {c : Collector} {s s' : Symbols} {done : List (NodeId × Collector)}
    (hc : Change m v node c s s') (h : s.InRange) (hr : Records done s) :
    Records (done ++ [(node, c)]) s' := by
  cases hc with
  | shader name =>
    refine ⟨?_, ?_⟩
    · rw [runsOf_append, if_pos rfl, ← hr.shaders]
      exact Array.size_push _
    · rw [runsOf_append, runsOf_append, if_neg nofun, if_neg nofun]
      exact hr.globals
  | subShader hk => exact hr.keep ⟨nofun, nofun, nofun⟩ Array.size_modify rfl
  | pass hk => exact hr.keep ⟨nofun, nofun, nofun⟩ rfl rfl
  | editShader k hd _ => exact hr.keep (isMinor_of_isDetail hd) Array.size_modify rfl
  | editSubShader k hd _ => exact hr.keep (isMinor_of_isDetail hd) rfl rfl
  | editPass k hd _ => exact hr.keep (isMinor_of_isDetail hd) rfl rfl
  | program =>
    obtain ⟨hshaders, hglobals⟩ := h.sizes_createProgram m v node
    refine ⟨?_, ?_⟩
    · rw [runsOf_append, if_neg nofun]
      exact hshaders.trans hr.shaders
    · rw [runsOf_append, runsOf_append, if_pos rfl, if_neg nofun]
      have hsize : (s.collectProgram m v node).cg.globals.size = s.cg.globals.size + 1 := hglobals
      have := hr.globals
      omega
  | includeBlock =>
    obtain ⟨hshaders, hglobals⟩ := h.sizes_createProgram m v node
    obtain ⟨hsame, hcg⟩ := s.sizes_collectInclude m v node
    refine ⟨?_, ?_⟩
    · rw [runsOf_append, if_neg nofun, hsame, hshaders, hr.shaders]
      rfl
    · rw [runsOf_append, runsOf_append, if_neg nofun, if_pos rfl, hcg, hglobals, hr.globals]
      rfl
  | declare hd hsteps =>
    exact hr.keep (isMinor_of_isDeclaration hd) rfl (hsteps.evolves h.cg).size_globals
  | declareAt hd hsteps _ =>
    exact hr.keep (isMinor_of_isDeclaration hd) rfl (hsteps.evolves h.cg).size_globals

theorem records_ofMatched (g : CompiledGrammar) : Records (plan g m.tree) (ofMatched m v g) := by
  refine ofMatched_induction ⟨rfl, rfl⟩ (fun {done node c s} hnone hr => ?_)
    (fun hrange hchange hr => hchange.records hrange hr) g
  -- shaders and programs lack nothing
  refine hr.keep ⟨?_, ?_, ?_⟩ rfl rfl
  all_goals
    rintro rfl
    exact nomatch hnone

/-! ### The graph of symbols -/

/-- Symbols whose numbers are in range and whose links agree. -/
structure Linked (s : Symbols) : Prop where
  /-- Every number is the number of something. -/
  inRange : s.InRange
  /-- A sub shader is listed once by its own shader, and by no other one. -/
  subShaders : ∀ ⦃id x⦄, s.subShaderAt? id = some x → ∀ ⦃k y⦄, s.shaderAt? k = some y →
    y.subShaders.count id = if x.shader = k then 1 else 0
  /-- A pass is listed once by its own sub shader, and by no other one. -/
  passes : ∀ ⦃id x⦄, s.passAt? id = some x → ∀ ⦃k y⦄, s.subShaderAt? k = some y →
    y.passes.count id = if x.subShader = k then 1 else 0
  /-- A program is listed once, by a shader, sub shader or pass, if it has a shader, and else not at all. -/
  programs : ∀ ⦃id g⦄, s.cg.globalAt? id = some g →
    s.programs.count id = if g.shader.isSome then 1 else 0
  /-- An include block of a shader is listed once there, and has that shader. -/
  includes : ∀ ⦃k x⦄, s.shaderAt? k = some x → ∀ id ∈ x.includes,
    x.includes.count id = 1 ∧ ∃ g, s.cg.globalAt? id = some g ∧ g.shader = some k

/-- **The symbols of a matched document** have numbers in range and links that agree, whatever the document,
the match tree, the vocabulary and the grammar. There is a shader for every match of a shader, and a program
for every match of a program or an include block. -/
theorem ofMatched_linked (m : MatchedDocument) (v : Vocabulary) (g : CompiledGrammar) :
    (ofMatched m v g).Linked ∧ Records (plan g m.tree) (ofMatched m v g) := by
  refine ⟨?_, records_ofMatched g⟩
  have hagree : (ofMatched m v g).links.Agree := agree_ofMatched g
  have hmap {α β : Type} {xs : Array α} {i : Nat} {x : α} (p : α → β) (h : xs[i]? = some x) :
      (xs.map p)[i]? = some (p x) := by
    rw [Array.getElem?_map, h]
    rfl
  refine ⟨inRange_ofMatched g, fun id x hx k y hy => ?_, fun id x hx k y hy => ?_, fun id p hp => ?_,
    fun k x hx id hid => ?_⟩
  · exact hagree.subShaders (hmap SubShader.shader hx) (hmap Shader.subShaders hy)
  · exact hagree.passes (hmap Pass.subShader hx) (hmap SubShader.passes hy)
  · exact hagree.programs (hmap Cg.Global.shader hp)
  · obtain ⟨hnodup, hshader⟩ := hagree.includes (hmap Shader.includes hx)
    have hid' := hshader id hid
    rw [links, Cg.Table.links, Array.getElem?_map] at hid'
    exact ⟨List.count_eq_one_of_mem hnodup hid, Option.map_eq_some_iff.mp hid'⟩

end Symbols

end ShaderAssist

import ShaderAssist.Proofs.Cg.Names
import ShaderAssist.Proofs.Symbols.Isolation
import ShaderAssist.Proofs.Symbols.Order
import ShaderAssist.Proofs.Symbols.Places

/-!
# Visibility of include blocks

A program that comes after an include block of the same shader imports it when it is made. Everything below the
include block has been collected by then, and nothing is added to it any more, because later nodes are not below
it. So in the end the program still sees all that the include block declares (`includes_visible`).
-/

namespace ShaderAssist

namespace Symbols

variable {m : MatchedDocument} {v : Vocabulary} {g : CompiledGrammar} {done rest : List (NodeId × Collector)}
  {node a b : NodeId} {c : Collector} {s s' : Symbols} {i x : Cg.GlobalId} {name : String}

/-! ### Symbols that grow -/

/-- Symbols that have all that other symbols have. -/
structure Extends (s s' : Symbols) : Prop where
  states : ∀ e ∈ s.states, e ∈ s'.states
  includes : ∀ shader, s.includesOf shader ⊆ s'.includesOf shader
  scopes : s.cg.scopes.Grows s'.cg.scopes
  names : s.cg.KeepsNames s'.cg

theorem Extends.refl (s : Symbols) : s.Extends s :=
  ⟨fun _ => id, fun _ => List.Subset.refl _, .refl _, .refl _⟩

theorem Extends.trans {s'' : Symbols} (h : s.Extends s') (h' : s'.Extends s'') : s.Extends s'' :=
  ⟨fun e he => h'.states e (h.states e he), fun sh => List.Subset.trans (h.includes sh) (h'.includes sh),
    h.scopes.trans h'.scopes, h.names.trans h'.names⟩

/-- The table before a new program imports anything. -/
def withNewProgram (m : MatchedDocument) (v : Vocabulary) (s : Symbols) (node : NodeId) : Cg.Table :=
  (s.cg.createGlobal v).2.setShader ⟨s.cg.globals.size⟩ (s.shaderAround? m.tree node)

theorem cg_createProgram (m : MatchedDocument) (v : Vocabulary) (s : Symbols) (node : NodeId) :
    (s.createProgram m v node).2.cg = (s.includesOf (s.shaderAround? m.tree node)).foldl
      (fun cg source => cg.importGlobal ⟨s.cg.globals.size⟩ source) (s.withNewProgram m v node) :=
  cg_addProgram _ _ _ _

theorem keepsNames_withNewProgram (m : MatchedDocument) (v : Vocabulary) (s : Symbols) (node : NodeId) :
    s.cg.KeepsNames (s.withNewProgram m v node) := by
  refine (s.cg.keepsNames_createGlobal v).trans (Cg.Table.keepsNames_modifyGlobal _ _ ?_)
  exact fun g => List.Subset.refl g.declaredTypes

theorem keepsNames_createProgram (m : MatchedDocument) (v : Vocabulary) (s : Symbols) (node : NodeId) :
    s.cg.KeepsNames (s.createProgram m v node).2.cg := by
  rw [cg_createProgram]
  exact (keepsNames_withNewProgram m v s node).trans
    (Cg.Table.keepsNames_foldl (fun cg source => cg.keepsNames_importGlobal _ source) _ _)

theorem Change.keepsNames (hc : Change m v node c s s') : s.cg.KeepsNames s'.cg := by
  cases hc with
  | program => exact keepsNames_createProgram m v s node
  | includeBlock =>
    rw [(sizes_collectInclude s m v node).2]
    exact keepsNames_createProgram m v s node
  | declare _ hsteps => exact hsteps.keepsNames
  | declareAt _ hsteps _ => exact hsteps.keepsNames
  | _ => exact .refl _

theorem keepsNames_after (m : MatchedDocument) (v : Vocabulary) (done : List (NodeId × Collector))
    (entry : NodeId × Collector) : (after m v done).cg.KeepsNames (after m v (done ++ [entry])).cg := by
  rcases after_concat_cases m v done entry with heq | hc
  · rw [heq]
    exact .refl _
  · exact (change_of_collect? (inRange_after m v done) hc).keepsNames

/-- **Symbols grow** along a run. -/
theorem extends_after (m : MatchedDocument) (v : Vocabulary) (done rest : List (NodeId × Collector)) :
    (after m v done).Extends (after m v (done ++ rest)) := by
  induction rest using List.reverseRecOn with
  | nil =>
    rw [List.append_nil]
    exact .refl _
  | append_singleton rest entry ih =>
    rw [← List.append_assoc]
    obtain ⟨symbol, hscoping, hplaces⟩ := rescopes_after m v (done ++ rest) entry
    exact ih.trans ⟨hplaces.kept, includesOf_after_subset m v _ entry, hscoping.grows,
      keepsNames_after m v _ entry⟩

theorem placed_after (v : Vocabulary) (ht : m.tree.ParentsFirst) (done : List (NodeId × Collector)) :
    (after m v done).Placed m.tree := by
  induction done using List.reverseRecOn with
  | nil => exact placed_empty m.tree
  | append_singleton done entry ih =>
    obtain ⟨symbol, hscoping, hplaces⟩ := rescopes_after m v done entry
    exact ih.collect (lexical_after m v done) ht (inRange_after m v done) hscoping hplaces

/-! ### New programs -/

/-- A collector makes a program. -/
def IsProgram (c : Collector) : Prop :=
  c = .program ∨ c = .includeBlock

theorem after_program (m : MatchedDocument) (v : Vocabulary) (hc : IsProgram c)
    (done : List (NodeId × Collector)) (node : NodeId) :
    (after m v (done ++ [(node, c)])).cg = ((after m v done).createProgram m v node).2.cg ∧
      (node, Symbol.global ⟨(after m v done).cg.globals.size⟩) ∈ (after m v (done ++ [(node, c)])).states := by
  rw [after_concat]
  rcases hc with rfl | rfl
  · exact ⟨rfl, List.mem_cons_self⟩
  · exact ⟨(sizes_collectInclude _ m v node).2, List.mem_cons_self⟩

section NewProgram

variable (h : s.InRange) (hi : i ∈ s.includesOf (s.shaderAround? m.tree node))

include h hi

/-- A new program sees the include blocks of its shader. -/
theorem InRange.sees_createProgram (v : Vocabulary) :
    (s.createProgram m v node).2.cg.scopes.Sees ⟨s.cg.globals.size⟩ i := by
  have hne := h.ne_of_mem_includesOf hi
  rw [h.scopes_createProgram m v node]
  refine Cg.Scopes.sees_importAll (Function.update_self _ _ _) hi hne ?_
  have hfresh := h.cg.isFreshContext (k := ⟨s.cg.contexts.size⟩) (Nat.lt_irrefl _)
  exact (Function.update_of_ne hne _ _).trans_ne (hfresh.outermost_ne i)

theorem InRange.isSome_findType_createProgram (v : Vocabulary) (hname : (s.cg.findType i name).isSome) :
    ((s.createProgram m v node).2.cg.findType ⟨s.cg.globals.size⟩ name).isSome := by
  rw [cg_createProgram]
  exact Cg.Table.isSome_findType_foldl_importGlobal hi
    ((h.cg.createGlobal v).setShader (s.shaderAround? m.tree node)).hasGlobal
    ((keepsNames_withNewProgram m v s node).findType hname)

end NewProgram

/-- The shader of a new program is the one around its node. -/
theorem InRange.shader_createProgram (h : s.InRange) (m : MatchedDocument) (v : Vocabulary) (node : NodeId) :
    (s.createProgram m v node).2.cg.scopes.shader ⟨s.cg.globals.size⟩ = s.shaderAround? m.tree node ∧
      (s.createProgram m v node).2.cg.scopes.outermost ⟨s.cg.globals.size⟩ = some ⟨s.cg.contexts.size⟩ := by
  rw [h.scopes_createProgram m v node]
  exact ⟨Function.update_self _ _ _, Function.update_self _ _ _⟩

/-- An include block is one of those of its shader. -/
theorem InRange.mem_includesOf_collectInclude (h : s.InRange) (v : Vocabulary) (ha : s.links.Agree)
    {k : ShaderId} (hk : s.shaderAround? m.tree node = some k) :
    ⟨s.cg.globals.size⟩ ∈ (s.collectInclude m v node).includesOf (some k) := by
  have hincludes := h.includes_collectInclude ha m v node
  rw [hk] at hincludes
  obtain ⟨y, hy⟩ : ∃ y, s.shaders[k.index]? = some y := ⟨_, Array.getElem?_eq_getElem (h.shaderAround hk)⟩
  have hlist : s.links.includes[k.index]? = some y.includes := by simp [Symbols.links, hy]
  rw [mem_includesOf_iff, hincludes]
  exact ⟨k, _, rfl, by rw [Array.getElem?_modify, if_pos rfl, hlist, Option.map_some],
    List.mem_append_right _ List.mem_cons_self⟩

/-! ### Later collectors -/

/-- A node that comes after a node that is not below another one is not below that one either. -/
theorem not_above_of_later (ht : m.tree.IsPreorder) {mid : List (NodeId × Collector)} {ca : Collector}
    (hplan : plan g m.tree = done ++ (a, ca) :: mid ++ (b, c) :: rest) (hab : a ∉ m.tree.ancestors b)
    {e : NodeId × Collector} (he : e ∈ rest) : a ∉ e.1 :: m.tree.ancestors e.1 := by
  have hsorted := pairwise_plan ht g
  rw [hplan, List.pairwise_append, List.pairwise_cons] at hsorted
  obtain ⟨-, ⟨hlater, -⟩, hearlier⟩ := hsorted
  have hlt : a.index < b.index :=
    hearlier (a, ca) (List.mem_append_right _ List.mem_cons_self) (b, c) List.mem_cons_self
  have hlt' : b.index < e.1.index := hlater e he
  intro ha
  rcases List.mem_cons.mp ha with rfl | ha
  · exact Nat.lt_asymm hlt hlt'
  · exact hab (ht.mem_ancestors_of_between ha hlt hlt')

/-- A program goes on seeing another one while collectors run elsewhere. -/
theorem sees_after_append (ht : m.tree.ParentsFirst) {start later : List (NodeId × Collector)}
    (hi : (a, Symbol.global i) ∈ (after m v start).states)
    (hlater : ∀ e ∈ later, a ∉ e.1 :: m.tree.ancestors e.1) (hsees : (after m v start).cg.scopes.Sees x i) :
    (after m v (start ++ later)).cg.scopes.Sees x i := by
  induction later using List.reverseRecOn with
  | nil => rwa [List.append_nil]
  | append_singleton later entry ih =>
    have hbefore := ih fun e he => hlater e (List.mem_append_left _ he)
    have helsewhere := hlater entry (List.mem_append_right _ List.mem_cons_self)
    rw [← List.append_assoc]
    have hl := lexical_after m v (start ++ later)
    have hp := placed_after v ht (start ++ later)
    have hstate := (extends_after m v start later).states _ hi
    obtain ⟨top, htop⟩ := Cg.Table.HasGlobal.exists_outermost ((inRange_after m v _).states _ hstate)
    obtain ⟨symbol, hscoping, -⟩ := rescopes_after m v (start ++ later) entry
    obtain ⟨hfunctions, hvars⟩ := hscoping.keeps hl htop (hp.globalAround?_ne hstate helsewhere ht)
      (hp.contextAround?_ne hstate helsewhere hl htop)
    exact hbefore.of_grows hscoping.grows hfunctions hvars

/-! ### Include blocks and later programs -/

/-- A collector makes a program with a number at a node. -/
def Makes (m : MatchedDocument) (v : Vocabulary) (g : CompiledGrammar) (c : Collector) (node : NodeId)
    (x : Cg.GlobalId) : Prop :=
  IsProgram c ∧ ∃ done rest, plan g m.tree = done ++ (node, c) :: rest ∧
    ((after m v done).createProgram m v node).1 = x

/-- A struct with a name is declared in a program. -/
def DeclaresStruct (m : MatchedDocument) (v : Vocabulary) (g : CompiledGrammar) (x : Cg.GlobalId)
    (name : String) : Prop :=
  ∃ done node rest, plan g m.tree = done ++ (node, .struct) :: rest ∧
    (after m v done).globalAround? m.tree node = some x ∧ m.word? node "name" = some name

/-- Of two places in a list the one comes before the other, or they are the same. -/
theorem splits_cases {α : Type} {l d₁ r₁ d₂ r₂ : List α} {e₁ e₂ : α} (h₁ : l = d₁ ++ e₁ :: r₁)
    (h₂ : l = d₂ ++ e₂ :: r₂) : (∃ mid, d₂ = d₁ ++ e₁ :: mid) ∨ (d₁ = d₂ ∧ e₁ = e₂) ∨
      ∃ mid, d₁ = d₂ ++ e₂ :: mid ∧ r₂ = mid ++ e₁ :: r₁ := by
  rcases List.append_eq_append_iff.mp (h₁.symm.trans h₂) with ⟨mid, hd, hr⟩ | ⟨mid, hd, hr⟩
  · rcases mid with _ | ⟨e, mid⟩
    · exact Or.inr (Or.inl ⟨by simpa using hd.symm, (List.cons.inj hr).1⟩)
    · exact Or.inl ⟨mid, by rw [hd, (List.cons.inj hr).1]⟩
  · rcases mid with _ | ⟨e, mid⟩
    · exact Or.inr (Or.inl ⟨by simpa using hd, (List.cons.inj hr).1.symm⟩)
    · exact Or.inr (Or.inr ⟨mid, by rw [hd, (List.cons.inj hr).1], (List.cons.inj hr).2⟩)

/-- A struct that is collected is found by its name from then on. -/
theorem isSome_findType_after_struct (hx : (after m v done).globalAround? m.tree node = some x)
    (hname : m.word? node "name" = some name) :
    ((after m v (done ++ [(node, .struct)])).cg.findType x name).isSome := by
  have hcg : (after m v (done ++ [(node, .struct)])).cg = ((after m v done).cg.addType x name).2 := by
    rw [after_concat]
    simp [collect, collect?, collectStruct, hx, hname, setState]
  rw [hcg]
  exact Cg.Table.isSome_findType_addType ((inRange_after m v done).globalAround hx) name

/-- A program keeps its node, its outermost context and its shader, which is the one around the node. -/
theorem after_made (m : MatchedDocument) (v : Vocabulary) (hc : IsProgram c)
    (done rest : List (NodeId × Collector)) (node : NodeId) :
    let x : Cg.GlobalId := ⟨(after m v done).cg.globals.size⟩
    let s := after m v (done ++ (node, c) :: rest)
    (node, Symbol.global x) ∈ s.states ∧ s.cg.HasGlobal x ∧
      s.cg.scopes.shader x = (after m v done).shaderAround? m.tree node := by
  obtain ⟨hcg, hstate⟩ := after_program m v hc done node
  obtain ⟨hshader, houtermost⟩ := (inRange_after m v done).shader_createProgram m v node
  rw [← hcg] at hshader houtermost
  have hext := extends_after m v (done ++ [(node, c)]) rest
  rw [← List.append_cons] at hext
  obtain ⟨houtermost', hshader'⟩ := hext.scopes.program houtermost
  exact ⟨hext.states _ hstate, Cg.Table.hasGlobal_of_outermost houtermost', hshader'.trans hshader⟩

/-- An include block stays one of those of its shader. -/
theorem mem_includesOf_after {k : ShaderId} (done rest : List (NodeId × Collector))
    (hk : (after m v done).shaderAround? m.tree node = some k) :
    ⟨(after m v done).cg.globals.size⟩ ∈
      (after m v (done ++ (node, .includeBlock) :: rest)).includesOf (some k) := by
  have hmem := (inRange_after m v done).mem_includesOf_collectInclude v (agree_after m v done) hk
  have hext := extends_after m v (done ++ [(node, .includeBlock)]) rest
  rw [← List.append_cons] at hext
  refine hext.includes _ ?_
  rw [after_concat]
  exact hmem

section Importing

variable {da mid rb : List (NodeId × Collector)} {k : ShaderId} (ht : m.tree.IsPreorder)
  (hplan : plan g m.tree = da ++ (a, .includeBlock) :: mid ++ (b, c) :: rb) (hc : IsProgram c)
  (hab : a ∉ m.tree.ancestors b) (ha : (after m v da).shaderAround? m.tree a = some k)
  (hb : (after m v (da ++ (a, .includeBlock) :: mid)).shaderAround? m.tree b = some k)

include ht hplan hc hab ha hb

/-- What the include block has when the program is made is all that it ever has. -/
theorem sees_ofMatched : (ofMatched m v g).cg.scopes.Sees
    ⟨(after m v (da ++ (a, .includeBlock) :: mid)).cg.globals.size⟩ ⟨(after m v da).cg.globals.size⟩ := by
  have hmem := mem_includesOf_after da mid ha
  rw [← hb] at hmem
  have hsees := (inRange_after m v _).sees_createProgram hmem v
  rw [← (after_program m v hc _ b).1] at hsees
  have hstate := (after_made m v (Or.inr rfl) da (mid ++ [(b, c)]) a).1
  rw [← List.cons_append, ← List.append_assoc] at hstate
  have hfinal := sees_after_append ht.parentsFirst hstate
    (fun e he => not_above_of_later ht hplan hab he) hsees
  rw [← List.append_cons, ← hplan] at hfinal
  exact hfinal

/-- A struct of the include block is declared before the program is made. -/
theorem isSome_findType_ofMatched (hname : DeclaresStruct m v g ⟨(after m v da).cg.globals.size⟩ name) :
    ((ofMatched m v g).cg.findType
      ⟨(after m v (da ++ (a, .includeBlock) :: mid)).cg.globals.size⟩ name).isSome := by
  obtain ⟨dn, n, rn, hplanN, hglobal, hword⟩ := hname
  rcases splits_cases hplanN hplan with ⟨mid', hdn⟩ | ⟨-, heq⟩ | ⟨mid', rfl, rfl⟩
  · have hfound : ((after m v (dn ++ [(n, .struct)])).cg.findType _ name).isSome :=
      isSome_findType_after_struct hglobal hword
    have hext := extends_after m v (dn ++ [(n, .struct)]) mid'
    rw [← List.append_cons, ← hdn] at hext
    have hbefore := hext.names.findType hfound
    have hmem := mem_includesOf_after da mid ha
    rw [← hb] at hmem
    have hprogram := (inRange_after m v _).isSome_findType_createProgram hmem v hbefore
    rw [← (after_program m v hc _ b).1] at hprogram
    have hfinal := (extends_after m v _ rb).names.findType hprogram
    rw [← List.append_cons, ← hplan] at hfinal
    exact hfinal
  · obtain ⟨-, rfl⟩ := Prod.mk.inj heq
    rcases hc with hc | hc <;> cases hc
  · -- later nodes are not in the include block
    have hmem : (n, Collector.struct) ∈ mid' ++ (n, .struct) :: rn :=
      List.mem_append_right _ List.mem_cons_self
    have hstate := (after_made m v (Or.inr rfl) da (mid ++ (b, c) :: mid') a).1
    rw [← List.cons_append, ← List.append_assoc] at hstate
    exact absurd hglobal ((placed_after v ht.parentsFirst _).globalAround?_ne hstate
      (not_above_of_later ht hplan hab hmem) ht.parentsFirst)

end Importing

/-- **A program sees the include blocks before it** in its shader, with all that they declare, unless it is part
of one. -/
theorem includes_visible (m : MatchedDocument) (v : Vocabulary) (g : CompiledGrammar) (hm : m.tree.IsTree)
    {a b : NodeId} {c : Collector} {i x : Cg.GlobalId} {k : ShaderId} (hi : Makes m v g .includeBlock a i)
    (hx : Makes m v g c b x) (hlater : i.index < x.index) (hab : a ∉ m.tree.ancestors b)
    (hik : (ofMatched m v g).cg.scopes.shader i = some k)
    (hxk : (ofMatched m v g).cg.scopes.shader x = some k) :
    (ofMatched m v g).cg.scopes.Sees x i ∧
      ∀ name, DeclaresStruct m v g i name → ((ofMatched m v g).cg.findType x name).isSome := by
  have ht := hm.isPreorder
  obtain ⟨hca, da, ra, hplanA, rfl⟩ := hi
  obtain ⟨hc, db, rb, hplanB, rfl⟩ := hx
  -- both are made with the shader that they have in the end
  have ha := (after_made m v hca da ra a).2.2
  have hb := (after_made m v hc db rb b).2.2
  rw [← hplanA] at ha
  rw [← hplanB] at hb
  have ha' := ha.symm.trans hik
  have hb' := hb.symm.trans hxk
  rcases splits_cases hplanA hplanB with ⟨mid, rfl⟩ | ⟨rfl, -⟩ | ⟨mid, rfl, -⟩
  · exact ⟨sees_ofMatched ht hplanB hc hab ha' hb',
      fun name hname => isSome_findType_ofMatched ht hplanB hc hab ha' hb' hname⟩
  · exact absurd hlater (Nat.lt_irrefl _)
  · -- the program would have been made before the include block
    have hmade := (after_made m v hc db mid b).2.1
    exact absurd hlater (Nat.lt_asymm hmade)

/-- A shader with an include block, in which there are a struct, a function and a variable, and a program. -/
def includingShader : MatchedDocument where
  document := .ofString "CGINCLUDE struct S int f() int a ENDCG CGPROGRAM ENDCG"
  tree :=
    let word (name : String) (start stop : Nat) : Match :=
      .node ⟨none, .item, .matched, start, stop, some name⟩ []
    let definition (origin : Origin) (start stop : Nat) (parts : List Match) : Match :=
      .node ⟨none, origin, .matched, start, stop, none⟩ parts
    .ofMatch <| definition (.scope ⟨0⟩) 0 54 [
      definition (.scope ⟨1⟩) 0 38 [
        definition (.pattern ⟨0⟩) 10 18 [word "name" 17 18],
        definition (.pattern ⟨1⟩) 19 26 [word "type" 19 22, word "name" 23 24],
        definition (.pattern ⟨2⟩) 27 32 [word "type" 27 30, word "name" 31 32]],
      definition (.scope ⟨2⟩) 39 54 []]

/-- A grammar whose patterns are structs, functions and variables, and whose scopes are shaders, include blocks
and programs. -/
def includingGrammar : CompiledGrammar where
  name := none
  items := #[]
  patterns := #[⟨none, none, some .struct, none⟩, ⟨none, none, some .function, none⟩,
    ⟨none, none, some .forInit, none⟩]
  scopes := #[⟨none, some .shader, none⟩, ⟨none, some .includeBlock, none⟩, ⟨none, some .program, none⟩]

theorem includes_visible_includingShader :
    let cg := (ofMatched includingShader default includingGrammar).cg
    Makes includingShader default includingGrammar .includeBlock ⟨1⟩ ⟨0⟩ ∧
      Makes includingShader default includingGrammar .program ⟨10⟩ ⟨1⟩ ∧
      DeclaresStruct includingShader default includingGrammar ⟨0⟩ "S" ∧
      cg.scopes.functions ⟨0⟩ = [⟨0⟩] ∧ cg.scopes.outerVars ⟨0⟩ = [⟨0⟩] ∧ cg.scopes.Sees ⟨1⟩ ⟨0⟩ ∧
      ∀ name, DeclaresStruct includingShader default includingGrammar ⟨0⟩ name →
        (cg.findType ⟨1⟩ name).isSome := by
  have hplan : plan includingGrammar includingShader.tree = [(⟨0⟩, .shader), (⟨1⟩, .includeBlock),
    (⟨2⟩, .struct), (⟨4⟩, .function), (⟨7⟩, .forInit), (⟨10⟩, .program)] := by decide +kernel
  have hinclude : Makes includingShader default includingGrammar .includeBlock ⟨1⟩ ⟨0⟩ :=
    ⟨Or.inr rfl, [(⟨0⟩, .shader)], _, hplan, rfl⟩
  have hprogram : Makes includingShader default includingGrammar .program ⟨10⟩ ⟨1⟩ :=
    ⟨Or.inl rfl, [(⟨0⟩, .shader), (⟨1⟩, .includeBlock), (⟨2⟩, .struct), (⟨4⟩, .function), (⟨7⟩, .forInit)], _,
      hplan, by decide +kernel⟩
  have hstruct : DeclaresStruct includingShader default includingGrammar ⟨0⟩ "S" :=
    ⟨[(⟨0⟩, .shader), (⟨1⟩, .includeBlock)], ⟨2⟩, _, hplan, by decide +kernel, by decide +kernel⟩
  exact ⟨hinclude, hprogram, hstruct, by decide +kernel, by decide +kernel,
    includes_visible _ _ _ (.ofMatch _) (k := ⟨0⟩) hinclude hprogram (by decide) (by decide +kernel)
      (by decide +kernel) (by decide +kernel)⟩

end Symbols

end ShaderAssist

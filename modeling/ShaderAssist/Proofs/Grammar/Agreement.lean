import ShaderAssist.Proofs.Grammar.Compiling

/-!
# Grammars that agree on what is reached

Compiling looks at a definition only when it comes to it. So two grammars compile to the same if they have
the same definitions at all places that are reached in one of them (`Compile.compile_eq_of_agrees`), be
the other definitions as malformed as they may. The definitions at a place need not be equal for that, since
they may hold definitions that are not reached: it is enough that their outlines are (`Definition.outline`).

The two compilations run in step, except that one of them may give up earlier because it has fewer levels
(`Compile.Refines`), which does not happen.
-/

namespace ShaderAssist

/-! ### Outlines -/

/-- What a definition says without the definitions inside it. -/
inductive Outline where
  /-- A pattern, with the places that its elements refer to. -/
  | pattern (p : PatternDef) (targets : List (Option Place))
  /-- A scope, with the number of patterns in its body. -/
  | scope (s : ScopeDef) (patterns : Nat)

/-- The outline of a definition. -/
def Definition.outline (g : Grammar) : Definition → Outline
  | pattern place p => .pattern { p with dictionary := [], scopes := [] }
      (p.parts.map fun e => (e.target? g place p).map Definition.place)
  | scope _ s => .scope { s with patterns := [] } s.patterns.length

/-- **Two grammars agree on what the first one reaches.** -/
structure Agrees (g g' : Grammar) : Prop where
  name : g.name = g'.name
  roots : g.patterns.length = g'.patterns.length
  outline : ∀ d, Reached g d →
    (g'.definitionAt? d.place).map (Definition.outline g') = some (d.outline g)

/-- Definitions of two grammars that are reached at the same place. -/
structure Paired (g g' : Grammar) (d d' : Definition) : Prop where
  left : Reached g d
  right : Reached g' d'
  place : d.place = d'.place

/-- Definitions that are reached at the same place have the same outline. -/
def Alike (g g' : Grammar) : Prop :=
  ∀ d d', Paired g g' d d' → d.outline g = d'.outline g'

theorem Agrees.alike {g g' : Grammar} (h : Agrees g g') : Alike g g' := by
  intro d d' hd
  have hout := h.outline d hd.left
  rw [hd.place, hd.right.definitionAt?] at hout
  exact (Option.some.inj hout).symm

theorem Alike.symm {g g' : Grammar} (h : Alike g g') : Alike g' g :=
  fun d d' hd => (h d' d ⟨hd.right, hd.left, hd.place.symm⟩).symm

section Outline
variable {g g' : Grammar} {place : Place}

/-- Patterns with the same outline differ in their dictionaries and scopes only, and their elements refer
to the same places. -/
theorem outline_pattern {p p' : PatternDef}
    (h : Definition.outline g (.pattern place p) = Definition.outline g' (.pattern place p')) :
    p' = { p with dictionary := p'.dictionary, scopes := p'.scopes } ∧
      ∀ e ∈ p.parts, (e.target? g place p).map Definition.place =
        (e.target? g' place p').map Definition.place := by
  obtain ⟨hp, ht⟩ := Outline.pattern.inj h
  have hp' : p' = { p with dictionary := p'.dictionary, scopes := p'.scopes } := by
    cases p; cases p'; simp_all
  refine ⟨hp', fun e he => ?_⟩
  have hparts : p'.parts = p.parts := by rw [hp']; rfl
  rw [hparts] at ht
  exact List.map_inj_left.mp ht e he

theorem outline_scope {place' : Place} {s s' : ScopeDef}
    (h : Definition.outline g (.scope place s) = Definition.outline g' (.scope place' s')) :
    s' = { s with patterns := s'.patterns } ∧ s.patterns.length = s'.patterns.length := by
  obtain ⟨hs, hlength⟩ := Outline.scope.inj h
  refine ⟨?_, hlength⟩
  cases s; cases s'; simp_all

/-- Lists of patterns of the same length, at the same places. -/
theorem forall₂_placed {step : Nat → PlaceStep} {ps ps' : List PatternDef}
    (hlength : ps.length = ps'.length) {R : Definition → Definition → Prop}
    (hR : ∀ d ∈ placed step place ps, ∀ d' ∈ placed step place ps', d.place = d'.place → R d d') :
    List.Forall₂ R (placed step place ps) (placed step place ps') := by
  have hl : ∀ qs : List PatternDef, (placed step place qs).length = qs.length := by
    intro qs
    unfold placed
    rw [List.length_map, List.length_zipIdx]
  refine List.forall₂_iff_get.mpr ⟨by rw [hl, hl, hlength], fun i h h' => ?_⟩
  refine hR _ (List.get_mem _ _) _ (List.get_mem _ _) ?_
  simp [placed, Definition.place]

end Outline

namespace Compile

variable {α β : Type} {E : Engine} {g g' : Grammar}

/-! ### Compilations in step -/

/-- The first step does what the second one does, if it does not give up. -/
def Refines (x y : CompileM α) : Prop :=
  ∀ b, x.run b = .error .nesting ∨ x.run b = y.run b

theorem Refines.rfl {x : CompileM α} : Refines x x :=
  fun _ => Or.inr (Eq.refl _)

theorem refines_nesting (y : CompileM α) : Refines (throw .nesting) y :=
  fun _ => Or.inl (Eq.refl _)

theorem refines_throw_bind (e : GrammarError) (f h : α → CompileM β) :
    Refines ((throw e : CompileM α) >>= f) ((throw e : CompileM α) >>= h) :=
  fun _ => Or.inr (Eq.refl _)

theorem Refines.bind {x y : CompileM α} {f h : α → CompileM β} (hx : Refines x y)
    (hf : ∀ a, Refines (f a) (h a)) : Refines (x >>= f) (y >>= h) := by
  intro b
  rw [StateT.run_bind, StateT.run_bind]
  rcases hx b with hb | hb
  · rw [hb]
    exact Or.inl (Eq.refl _)
  rw [← hb]
  rcases x.run b with e | ⟨a, b'⟩
  · exact Or.inr (Eq.refl _)
  · exact hf a b'

theorem refines_mapM {γ : Type} {f : α → CompileM β} {f' : γ → CompileM β} {as : List α}
    {cs : List γ} (h : List.Forall₂ (fun a c => Refines (f a) (f' c)) as cs) :
    Refines (as.mapM f) (cs.mapM f') := by
  induction h with
  | nil =>
    rw [List.mapM_nil, List.mapM_nil]
    exact .rfl
  | cons hac _ ih =>
    rw [List.mapM_cons, List.mapM_cons]
    exact hac.bind fun _ => ih.bind fun _ => .rfl

theorem refines_remembered (place : Place) {fresh fresh' : CompileM ItemId}
    (h : Refines fresh fresh') : Refines (remembered place fresh) (remembered place fresh') := by
  refine Refines.rfl.bind fun b => ?_
  split
  · exact .rfl
  · exact h

section Define
variable {define define' : Definition → CompileM ItemId}
  (hdefine : ∀ d d', Paired g g' d d' → Refines (define d) (define' d'))
  {place : Place} {p : PatternDef} {dictionary : List (String × PatternDef)}
  {scopes : List (String × ScopeDef)}
  (hp : Reached g (.pattern place p))
  (hp' : Reached g' (.pattern place { p with dictionary := dictionary, scopes := scopes }))
  (htargets : ∀ e ∈ p.parts, (e.target? g place p).map Definition.place =
    (e.target? g' place { p with dictionary := dictionary, scopes := scopes }).map Definition.place)
include hp hp' htargets

/-- An element refers to nothing in both grammars, or to definitions at the same place. -/
theorem target?_cases {e : Element} (he : e ∈ p.parts) :
    (e.target? g place p = none ∧
      e.target? g' place { p with dictionary := dictionary, scopes := scopes } = none) ∨
    ∃ d d', e.target? g place p = some d ∧
      e.target? g' place { p with dictionary := dictionary, scopes := scopes } = some d' ∧
      Paired g g' d d' := by
  have h := htargets e he
  cases hd : e.target? g place p with
  | none =>
    rw [hd] at h
    exact Or.inl ⟨rfl, Option.map_eq_none_iff.mp h.symm⟩
  | some d =>
    rw [hd] at h
    obtain ⟨d', hd', hplace⟩ := Option.map_eq_some_iff.mp h.symm
    exact Or.inr ⟨d, d', rfl, hd', .step hp (.element he hd), .step hp' (.element he hd'),
      hplace.symm⟩

include hdefine

theorem refines_reference {name : String} (hname : .reference name ∈ p.parts) :
    Refines (reference E g define place p name)
      (reference E g' define' place { p with dictionary := dictionary, scopes := scopes } name) := by
  have hcases := target?_cases hp hp' htargets hname
  unfold reference
  by_cases hblank : name = " "
  · rw [if_pos hblank, if_pos hblank]
    exact .rfl
  rw [if_neg hblank, if_neg hblank]
  simp only [Element.target?, if_neg hblank] at hcases
  cases htoken : tokenOfName? name with
  | some kind => exact .rfl
  | none =>
    rw [htoken] at hcases
    rcases hcases with ⟨h, h'⟩ | ⟨d, d', h, h', hd⟩
    · dsimp only at h h' ⊢
      rw [h, h']
      exact .rfl
    · dsimp only at h h' ⊢
      rw [h, h']
      exact (hdefine d d' hd).bind fun _ => .rfl

set_option linter.unusedSectionVars false in
mutual

theorem refines_element : ∀ e : Element, (∀ e' ∈ e.parts, e' ∈ p.parts) →
    Refines (element E g define place p e)
      (element E g' define' place { p with dictionary := dictionary, scopes := scopes } e)
  | .space, _ => by
    rw [element, element]
    exact .rfl
  | .text text, _ => by
    rw [element, element]
    exact .rfl
  | .regex source, _ => by
    rw [element, element]
    exact .rfl
  | .reference name, he => by
    rw [element, element]
    exact (refines_reference hdefine hp hp' htargets (he _ (Element.mem_parts _))).bind fun _ => .rfl
  | .scope name, he => by
    rw [element, element]
    rcases target?_cases hp hp' htargets (he _ (Element.mem_parts _)) with
      ⟨h, h'⟩ | ⟨d, d', h, h', hd⟩
    · rw [Element.target?] at h h'
      rw [h, h']
      exact .rfl
    · rw [Element.target?] at h h'
      rw [h, h']
      exact (hdefine d d' hd).bind fun _ => .rfl
  | .optional inner repeats, he => by
    rw [element, element]
    refine (refines_elements inner fun e' h => he e' ?_).bind fun _ => .rfl
    rw [Element.parts]
    exact List.mem_cons_of_mem _ h

theorem refines_elements : ∀ es : List Element, (∀ e' ∈ partsOf es, e' ∈ p.parts) →
    Refines (elements E g define place p es)
      (elements E g' define' place { p with dictionary := dictionary, scopes := scopes } es)
  | [], _ => by
    rw [elements, elements]
    exact .rfl
  | e :: es, he => by
    have hparts : ∀ e', e' ∈ e.parts ∨ e' ∈ partsOf es → e' ∈ p.parts := by
      intro e' h
      refine he e' ?_
      rw [partsOf]
      exact List.mem_append.mpr h
    rw [elements, elements]
    exact (refines_element e fun e' h => hparts e' (Or.inl h)).bind fun _ =>
      (refines_elements es fun e' h => hparts e' (Or.inr h)).bind fun _ => .rfl

end

theorem refines_alternative {source : String} (hs : source ∈ p.sources) :
    Refines (alternative E g define place p source)
      (alternative E g' define' place { p with dictionary := dictionary, scopes := scopes } source) := by
  unfold alternative
  cases hes : Pattern.readElements source with
  | error e => exact .rfl
  | ok es =>
    refine (refines_elements hdefine hp hp' htargets es fun e he => ?_).bind fun _ => .rfl
    exact PatternDef.mem_parts.mpr ⟨source, hs, es, hes, he⟩

theorem refines_freshPattern : Refines (freshPattern E g define place p)
    (freshPattern E g' define' place { p with dictionary := dictionary, scopes := scopes }) := by
  have hsources : Refines (p.sources.mapM (alternative E g define place p)) (p.sources.mapM
      (alternative E g' define' place { p with dictionary := dictionary, scopes := scopes })) := by
    refine refines_mapM (List.forall₂_same.mpr fun source hs => ?_)
    exact refines_alternative hdefine hp hp' htargets hs
  unfold freshPattern
  dsimp only
  split
  · exact refines_throw_bind _ _ _
  refine Refines.rfl.bind fun b => Refines.rfl.bind fun _ => Refines.rfl.bind fun id => ?_
  exact Refines.rfl.bind fun _ => hsources.bind fun _ => .rfl

end Define

theorem refines_freshScope {define define' : Definition → CompileM ItemId}
    (hdefine : ∀ d d', Paired g g' d d' → Refines (define d) (define' d')) {place : Place}
    {s : ScopeDef} {patterns : List PatternDef} (hs : Reached g (.scope place s))
    (hs' : Reached g' (.scope place { s with patterns := patterns }))
    (hlength : s.patterns.length = patterns.length) :
    Refines (freshScope E define place s)
      (freshScope E define' place { s with patterns := patterns }) := by
  have hbody : Refines ((placed .body place s.patterns).mapM define)
      ((placed .body place patterns).mapM define') := by
    refine refines_mapM (forall₂_placed hlength fun d hd d' hd' hplace => hdefine d d' ?_)
    exact ⟨.step hs (.body hd), .step hs' (.body hd'), hplace⟩
  unfold freshScope
  dsimp only
  split
  · exact refines_throw_bind _ _ _
  refine Refines.rfl.bind fun b => Refines.rfl.bind fun _ => Refines.rfl.bind fun opening => ?_
  refine Refines.rfl.bind fun closing => Refines.rfl.bind fun id => Refines.rfl.bind fun _ => ?_
  exact hbody.bind fun _ => .rfl

/-- **Definitions at the same place are compiled in step.** -/
theorem refines_definition (h : Alike g g') : ∀ {n n' : Nat}, n ≤ n' → ∀ d d', Paired g g' d d' →
    Refines (definition E g n d) (definition E g' n' d')
  | 0, 0, _, d, d', hd => by
    rw [definition, definition, hd.place]
    exact .rfl
  | 0, n' + 1, _, d, d', hd => by
    cases d' <;>
    · rw [definition, definition, hd.place]
      exact refines_remembered _ (refines_nesting _)
  | n + 1, n' + 1, hn, .pattern place p, .pattern place' p', hd => by
    obtain rfl : place = place' := hd.place
    obtain ⟨hp', htargets⟩ := outline_pattern (h _ _ hd)
    rw [hp'] at hd htargets ⊢
    refine refines_remembered _ (refines_freshPattern ?_ hd.left hd.right htargets)
    exact refines_definition h (Nat.le_of_succ_le_succ hn)
  | n + 1, n' + 1, hn, .scope place s, .scope place' s', hd => by
    obtain rfl : place = place' := hd.place
    obtain ⟨hs', hlength⟩ := outline_scope (h _ _ hd)
    rw [hs'] at hd ⊢
    refine refines_remembered _ (refines_freshScope ?_ hd.left hd.right hlength)
    exact refines_definition h (Nat.le_of_succ_le_succ hn)
  | n + 1, n' + 1, _, .pattern _ _, .scope _ _, hd => by
    have := h _ _ hd
    cases this
  | n + 1, n' + 1, _, .scope _ _, .pattern _ _, hd => by
    have := h _ _ hd
    cases this

theorem refines_document (h : Alike g g') (hroots : g.patterns.length = g'.patterns.length)
    (hcount : g.count ≤ g'.count) : Refines (document E g) (document E g') := by
  have hbody : Refines ((placed .root [] g.patterns).mapM (definition E g g.count))
      ((placed .root [] g'.patterns).mapM (definition E g' g'.count)) := by
    refine refines_mapM (forall₂_placed hroots fun d hd d' hd' hplace => ?_)
    exact refines_definition h hcount d d' ⟨.root hd, .root hd', hplace⟩
  have hempty : g.patterns.isEmpty = g'.patterns.isEmpty := by
    rw [Bool.eq_iff_iff, List.isEmpty_iff, List.isEmpty_iff, ← List.length_eq_zero_iff,
      ← List.length_eq_zero_iff, hroots]
  unfold document
  dsimp only
  rw [hempty]
  split
  · exact refines_throw_bind _ _ _
  exact Refines.rfl.bind fun _ => hbody.bind fun _ => .rfl

/-- Compiling never gives up for its number of levels. -/
theorem run_document_ne_nesting (E : Engine) (g : Grammar) : (document E g).run {} ≠ .error .nesting := by
  intro he
  have h := runs_document E g
  unfold Runs at h
  rw [he] at h
  rcases h with ⟨h, -⟩ | ⟨d, -, h⟩
  · cases h
  · cases h

/-- **Grammars that agree on what is reached compile to the same.** -/
theorem compile_eq_of_agrees (h : Agrees g g') : g'.compile E = g.compile E := by
  have hrun : (document E g).run {} = (document E g').run {} := by
    rcases Nat.le_total g.count g'.count with hcount | hcount
    · rcases refines_document h.alike h.roots hcount {} with hr | hr
      · exact absurd hr (run_document_ne_nesting E g)
      · exact hr
    · rcases refines_document h.alike.symm h.roots.symm hcount {} with hr | hr
      · exact absurd hr (run_document_ne_nesting E g')
      · exact hr.symm
  unfold Grammar.compile
  rw [hrun, h.name]

end Compile

end ShaderAssist

import ShaderAssist.Proofs.Grammar.Failing
import ShaderAssist.Proofs.Match.LeftRecursion

/-!
# Definitions without left recursion

A grammar is descending if its reached definitions are well formed, its words are not empty, and no
definition comes back to itself through references that can come first. Then it compiles, and the table of
items is descending too (`Grammar.IsDescending.exists_compile`): what comes first in an item is what comes
first in the element that the item is the translation of.

`Grammar.isDescending` decides whether a grammar is descending, from its definitions alone.
-/

namespace ShaderAssist

/-! ### What can come first -/

mutual

/-- The elements in an element that can come first. -/
def Element.leading (p : PatternDef) : Element → List Element
  | .optional inner _ => leadingOf p inner
  | e => [e]

/-- The elements in a sequence that can come first. -/
def leadingOf (p : PatternDef) : List Element → List Element
  | [] => []
  | e :: es =>
    if e.counts p then
      match e.multiplicity with
      | .one => e.leading p
      | _ => e.leading p ++ leadingOf p es
    else leadingOf p es

end

mutual

theorem Element.leading_subset (p : PatternDef) : ∀ (e : Element), ∀ e' ∈ e.leading p, e' ∈ e.parts
  | .optional inner repeats, e', h => by
    rw [Element.leading] at h
    rw [Element.parts]
    exact List.mem_cons_of_mem _ (leadingOf_subset p inner e' h)
  | .text _, _, h => h
  | .space, _, h => h
  | .reference _, _, h => h
  | .scope _, _, h => h
  | .regex _, _, h => h

theorem leadingOf_subset (p : PatternDef) : ∀ (es : List Element),
    ∀ e' ∈ leadingOf p es, e' ∈ partsOf es
  | [], _, h => h
  | e :: es, e', h => by
    rw [leadingOf] at h
    rw [partsOf, List.mem_append]
    split_ifs at h
    · split at h
      · exact Or.inl (e.leading_subset p e' h)
      · rcases List.mem_append.mp h with h | h
        · exact Or.inl (e.leading_subset p e' h)
        · exact Or.inr (leadingOf_subset p es e' h)
    · exact Or.inr (leadingOf_subset p es e' h)

end

/-- The places that a definition refers to before a character is read. A scope has its delimiter first. -/
def Definition.leading (g : Grammar) : Definition → List Place
  | .pattern place p => p.sources.flatMap fun source => match Pattern.readSpelled source with
    | .ok es => (leadingOf p es).filterMap fun e => (e.target? g place p).map Definition.place
    | .error _ => []
  | .scope .. => []

theorem mem_leading {g : Grammar} {place : Place} {p : PatternDef} {source : String}
    {es : List Element} {e : Element} {d : Definition} (hs : source ∈ p.sources)
    (hes : Pattern.readElements source = .ok es) (he : e ∈ leadingOf p es)
    (ht : e.target? g place p = some d) : d.place ∈ (Definition.pattern place p).leading g := by
  refine List.mem_flatMap.mpr ⟨source, hs, ?_⟩
  rw [← Pattern.readElements_eq_readSpelled, hes]
  exact List.mem_filterMap.mpr ⟨e, he, by rw [ht]; rfl⟩

/-! ### Descending grammars -/

/-- A word is not empty, and a regular expression matches no empty text. -/
def Element.IsSolid (p : PatternDef) : Element → Prop
  | .text word => word ≠ ""
  | .regex source =>
    ∀ r ∈ Regex.ofSource? (Compile.anchored source p.ignoreCase), r.program.consumes
  | _ => True

/-- All words of a definition are solid. -/
def Definition.IsSolid : Definition → Prop
  | .pattern _ p => ∀ e ∈ p.parts, e.IsSolid p
  | .scope .. => True

instance (p : PatternDef) : DecidablePred (Element.IsSolid p)
  | .text word => inferInstanceAs (Decidable (word ≠ ""))
  | .regex source => decidable_of_iff
      (∀ r ∈ Regex.ofSpelled? (Compile.anchored source p.ignoreCase), r.program.consumes)
      (by rw [Element.IsSolid, Regex.ofSource?_eq_ofSpelled?])
  | .space | .reference _ | .scope _ | .optional .. => isTrue trivial

instance : DecidablePred Definition.IsSolid
  | .pattern _ p => inferInstanceAs (Decidable (∀ e ∈ p.parts, e.IsSolid p))
  | .scope .. => isTrue trivial

namespace Grammar

variable {g : Grammar}

/-- The definition at `b` refers to the one at `a` before a character is read. -/
def Leads (g : Grammar) (a b : Place) : Prop :=
  ∃ d, g.definitionAt? b = some d ∧ a ∈ d.leading g

/-- **A grammar without left recursion.** -/
structure IsDescending (g : Grammar) : Prop where
  patterns : g.patterns ≠ []
  wellFormed : ∀ d, Reached g d → d.IsWellFormed .standard g
  solid : ∀ d, Reached g d → d.IsSolid
  founded : ∀ d, Reached g d → Acc g.Leads d.place

/-- The list `settled` of places with one more in front, after all those that it leads to. They are gone
through at most `n` deep; none if that is not enough, or if something is wrong with a definition. -/
def settle (g : Grammar) : Nat → List Place → Place → Option (List Place)
  | 0, _, _ => none
  | n + 1, settled, place =>
    if place ∈ settled then some settled
    else match g.definitionAt? place with
      | none => none
      | some d =>
        if d.IsWellFormed .standard g ∧ d.IsSolid then
          ((d.leading g).foldlM (settle g n) settled).map (place :: ·)
        else none

/-- Whether a grammar is descending. All its definitions are looked at, reached or not. -/
def isDescending (g : Grammar) : Bool :=
  !g.patterns.isEmpty && (g.places.foldlM (g.settle (g.count + 1)) []).isSome

/-- A place whose definition is in order, and from which no way leads on forever. -/
structure Sound (g : Grammar) (place : Place) : Prop where
  definition : ∀ d, g.definitionAt? place = some d → d.IsWellFormed .standard g ∧ d.IsSolid
  founded : Acc g.Leads place

/-- What is reached from sound places by settling some more. -/
theorem sound_foldlM {f : List Place → Place → Option (List Place)}
    (hf : ∀ s q t, f s q = some t → (∀ r ∈ s, g.Sound r) →
      (∀ r ∈ t, g.Sound r) ∧ q ∈ t ∧ s ⊆ t) :
    ∀ {qs s t : List Place}, qs.foldlM f s = some t → (∀ r ∈ s, g.Sound r) →
      (∀ r ∈ t, g.Sound r) ∧ qs ⊆ t ∧ s ⊆ t
  | [], s, t, h, hs => by
    obtain rfl : s = t := Option.some.inj h
    exact ⟨hs, List.nil_subset _, List.Subset.refl _⟩
  | q :: qs, s, t, h, hs => by
    rw [List.foldlM_cons] at h
    obtain ⟨u, hu, ht⟩ := Option.bind_eq_some_iff.mp h
    obtain ⟨hsound, hq, hsub⟩ := hf s q u hu hs
    obtain ⟨hsound', hqs, hsub'⟩ := sound_foldlM hf ht hsound
    exact ⟨hsound', List.cons_subset.mpr ⟨hsub' hq, hqs⟩, List.Subset.trans hsub hsub'⟩

theorem sound_settle : ∀ {n : Nat} {s : List Place} {q : Place} {t : List Place},
    g.settle n s q = some t → (∀ r ∈ s, g.Sound r) → (∀ r ∈ t, g.Sound r) ∧ q ∈ t ∧ s ⊆ t
  | 0, s, q, t, h, _ => by cases h
  | n + 1, s, q, t, h, hs => by
    rw [settle] at h
    split_ifs at h with hq
    · obtain rfl : s = t := Option.some.inj h
      exact ⟨hs, hq, List.Subset.refl _⟩
    cases hd : g.definitionAt? q with
    | none => rw [hd] at h; cases h
    | some d =>
      rw [hd] at h
      dsimp only at h
      split_ifs at h with hok
      obtain ⟨u, hu, rfl⟩ := Option.map_eq_some_iff.mp h
      obtain ⟨hsound, hleading, hsub⟩ := sound_foldlM (fun _ _ _ => sound_settle) hu hs
      refine ⟨List.forall_mem_cons.mpr ⟨⟨?_, ?_⟩, hsound⟩, List.mem_cons_self ..,
        List.Subset.trans hsub (List.subset_cons_self _ _)⟩
      · rintro d' hd'
        obtain rfl : d = d' := Option.some.inj (hd.symm.trans hd')
        exact hok
      · -- all places that come first are settled already
        refine Acc.intro q fun a ⟨d', hd', ha⟩ => ?_
        obtain rfl : d = d' := Option.some.inj (hd.symm.trans hd')
        exact (hsound a (hleading ha)).founded

/-- **The check is right.** -/
theorem isDescending_of_check (h : g.isDescending) : g.IsDescending := by
  obtain ⟨hpatterns, hsettled⟩ := Bool.and_eq_true_iff.mp h
  obtain ⟨t, ht⟩ := Option.isSome_iff_exists.mp hsettled
  obtain ⟨hsound, hplaces, -⟩ := sound_foldlM (fun _ _ _ => sound_settle) ht fun r hr => by cases hr
  have hreached : ∀ d, Reached g d → g.Sound d.place := fun d hd =>
    hsound d.place (hplaces hd.place_mem)
  refine ⟨?_, fun d hd => ?_, fun d hd => ?_, fun d hd => (hreached d hd).founded⟩
  · rintro hnil
    rw [hnil] at hpatterns
    cases hpatterns
  · exact ((hreached d hd).definition d hd.definitionAt?).1
  · exact ((hreached d hd).definition d hd.definitionAt?).2

end Grammar

/-! ### The items of a descending grammar -/

namespace Layout

variable {E : Engine} {g : Grammar} {L : Layout} {place : Place} {p : PatternDef} {id : ItemId} {item : Item}

theorem acc_of_leading (hid : L.item? id = some item)
    (h : ∀ r ∈ item.leading, Acc L.Leads r) : Acc L.Leads id := by
  refine Acc.intro id fun a ⟨item', hid', ha⟩ => ?_
  obtain rfl : item = item' := Option.some.inj (hid.symm.trans hid')
  exact h a ha

/-- An item with nothing before its text. -/
theorem acc_of_leading_eq_nil (hid : L.item? id = some item) (h : item.leading = []) :
    Acc L.Leads id := by
  refine acc_of_leading hid fun r hr => ?_
  rw [h] at hr
  cases hr

theorem IsWord.acc {word : String} {ignoreCase crossLine : Bool}
    (h : L.IsWord E word ignoreCase crossLine id) : Acc L.Leads id :=
  acc_of_leading_eq_nil h.2 rfl

theorem IsToken.acc {kind : TokenKind} {source : String} {ignoreCase crossLine : Bool}
    (h : L.IsToken E kind source ignoreCase crossLine id) : Acc L.Leads id := by
  obtain ⟨finder, -, hid⟩ := h
  exact acc_of_leading_eq_nil hid rfl

theorem Closes.acc {elements : List SequenceElement} (hc : L.Closes elements id)
    (h : ∀ r ∈ leadingElements elements, Acc L.Leads r) : Acc L.Leads id := by
  unfold Closes at hc
  split at hc
  · exact hc.elim
  · rw [hc]
    exact h _ (List.mem_singleton.mpr rfl)
  · exact acc_of_leading hc h

/-- From the definition that an element refers to no way leads on forever. -/
def Founded (g : Grammar) (L : Layout) (place : Place) (p : PatternDef) (e : Element) : Prop :=
  ∀ d id, e.target? g place p = some d → L.Has d id → Acc L.Leads id

mutual

/-- **The item of an element** leads where the elements that can come first in it lead. -/
theorem acc_of_renders : ∀ {e : Element} {id : ItemId},
    (∀ e' ∈ e.leading p, Founded g L place p e') → Renders E g L place p e id → Acc L.Leads id
  | .space, id, _, hr => by
    rw [Renders] at hr
    exact acc_of_leading_eq_nil hr rfl
  | .text word, id, _, hr => by
    rw [Renders] at hr
    exact hr.acc
  | .regex source, id, _, hr => by
    rw [Renders] at hr
    exact hr.acc
  | .scope name, id, hf, hr => by
    rw [Renders] at hr
    obtain ⟨d, hd, hid⟩ := hr
    exact hf _ (List.mem_singleton.mpr rfl) d id hd hid
  | .reference name, id, hf, hr => by
    rw [Renders, RendersReference] at hr
    split_ifs at hr with hblank
    · exact acc_of_leading_eq_nil hr rfl
    obtain ⟨inner, hid, hmeans⟩ := hr
    refine acc_of_leading hid (List.forall_mem_singleton.mpr ?_)
    have hfounded := hf _ (List.mem_singleton.mpr rfl)
    unfold IsMeaning at hmeans
    split at hmeans
    · exact hmeans.acc
    · rename_i htoken
      split at hmeans
      · rename_i d hd
        refine hfounded d inner ?_ hmeans
        simp only [Element.target?, if_neg hblank, htoken, hd]
      · exact hmeans.acc
  | .optional inner repeats, id, hf, hr => by
    rw [Renders] at hr
    rw [Element.leading] at hf
    obtain ⟨elements, hall, hcloses⟩ := hr
    exact hcloses.acc (acc_of_rendersAll hf hall)

theorem acc_of_rendersAll : ∀ {es : List Element} {elements : List SequenceElement},
    (∀ e' ∈ leadingOf p es, Founded g L place p e') → RendersAll E g L place p es elements →
      ∀ r ∈ leadingElements elements, Acc L.Leads r
  | [], elements, _, hr => by
    rw [RendersAll] at hr
    subst hr
    exact fun r hr => by cases hr
  | e :: es, elements, hf, hr => by
    rw [RendersAll] at hr
    rw [leadingOf] at hf
    split_ifs at hr hf with hcounts
    · obtain ⟨id, rest, rfl, hid, hrest⟩ := hr
      cases hm : e.multiplicity with
      | one =>
        rw [hm] at hf
        exact List.forall_mem_singleton.mpr (acc_of_renders hf hid)
      | optional | many =>
        rw [hm] at hf
        refine List.forall_mem_cons.mpr ⟨acc_of_renders (fun e' he' => hf e' ?_) hid,
          acc_of_rendersAll (fun e' he' => hf e' ?_) hrest⟩
        · exact List.mem_append_left _ he'
        · exact List.mem_append_right _ he'
    · exact acc_of_rendersAll hf hr

end

/-! ### Words -/

theorem isSolid_of_isDefinition (h : item.isDefinition) : item.IsSolid := by
  cases item <;> simp_all [Item.isDefinition, Item.IsSolid]

/-- The item of a sequence is solid if the items of its elements are. -/
theorem Closes.isSolid {elements : List SequenceElement} (hc : L.Closes elements id)
    (h : ∀ e ∈ elements, ∀ item, L.item? e.item = some item → item.IsSolid)
    (hid : L.item? id = some item) : item.IsSolid := by
  unfold Closes at hc
  split at hc
  · exact hc.elim
  · rw [hc] at hid
    exact h _ (List.mem_singleton.mpr rfl) item hid
  · obtain rfl := Option.some.inj (hc.symm.trans hid)
    trivial

/-- The finders of the standard engine find no empty text if their programs do not. -/
theorem consumes_of_standard {source : String} {finder : Finder}
    (h : ∀ r ∈ Regex.ofSource? source, r.program.consumes)
    (hfinder : Engine.standard.finder? source = some finder) : finder.Consumes := by
  obtain ⟨r, hr, rfl⟩ := Option.map_eq_some_iff.mp hfinder
  exact Program.consumes_finder (h r hr)

/-- The built-in tokens match no empty text. -/
theorem consumes_token (kind : TokenKind) :
    ∀ r ∈ Regex.ofSource? (Compile.anchored (Compile.tokenSource kind) false), r.program.consumes := by
  cases kind <;> decide +kernel

section Solid
variable (hL : Faithful .standard g L) (hp : Reached g (.pattern place p))
include hL hp

set_option linter.unusedSectionVars false in
mutual

theorem isSolid_of_renders : ∀ {e : Element} {id : ItemId} {item : Item},
    (∀ e' ∈ e.parts, e' ∈ p.parts) → (∀ e' ∈ e.parts, e'.IsSolid p) → Renders .standard g L place p e id →
      L.item? id = some item → item.IsSolid
  | .space, id, item, _, _, hr, hid => by
    rw [Renders] at hr
    obtain rfl := Option.some.inj (hr.symm.trans hid)
    trivial
  | .text word, id, item, _, hs, hr, hid => by
    have hword : word ≠ "" := hs _ (Element.mem_parts _)
    rw [Renders] at hr
    obtain rfl := Option.some.inj (hr.2.symm.trans hid)
    simpa [Item.IsSolid] using hword
  | .regex source, id, item, _, hs, hr, hid => by
    have hregex : (Element.regex source).IsSolid p := hs _ (Element.mem_parts _)
    rw [Renders] at hr
    obtain ⟨finder, hfinder, hid'⟩ := hr
    obtain rfl := Option.some.inj (hid'.symm.trans hid)
    exact consumes_of_standard hregex hfinder
  | .reference name, id, item, _, _, hr, hid => by
    rw [Renders, RendersReference] at hr
    split_ifs at hr
    · obtain rfl := Option.some.inj (hr.symm.trans hid)
      trivial
    · obtain ⟨inner, hid', -⟩ := hr
      obtain rfl := Option.some.inj (hid'.symm.trans hid)
      trivial
  | .scope name, id, item, he, _, hr, hid => by
    rw [Renders] at hr
    obtain ⟨d, hd, hhas⟩ := hr
    have hreached : Reached g d := .step hp (.element (he _ (Element.mem_parts _)) hd)
    obtain ⟨item', hid', hdef⟩ := (hL.defined id).mpr ⟨d, hreached, hhas⟩
    obtain rfl := Option.some.inj (hid'.symm.trans hid)
    exact isSolid_of_isDefinition hdef
  | .optional inner repeats, id, item, he, hs, hr, hid => by
    rw [Renders] at hr
    rw [Element.parts] at he hs
    obtain ⟨elements, hall, hcloses⟩ := hr
    refine hcloses.isSolid (isSolid_of_rendersAll (fun e' h => he e' ?_) (fun e' h => hs e' ?_) hall) hid
    · exact List.mem_cons_of_mem _ h
    · exact List.mem_cons_of_mem _ h

theorem isSolid_of_rendersAll : ∀ {es : List Element} {elements : List SequenceElement},
    (∀ e' ∈ partsOf es, e' ∈ p.parts) → (∀ e' ∈ partsOf es, e'.IsSolid p) →
      RendersAll .standard g L place p es elements →
      ∀ e ∈ elements, ∀ item, L.item? e.item = some item → item.IsSolid
  | [], elements, _, _, hr => by
    rw [RendersAll] at hr
    subst hr
    exact fun e he => by cases he
  | e :: es, elements, he, hs, hr => by
    rw [RendersAll] at hr
    rw [partsOf] at he hs
    have hrest : ∀ {rest}, RendersAll .standard g L place p es rest →
        ∀ e ∈ rest, ∀ item, L.item? e.item = some item → item.IsSolid :=
      isSolid_of_rendersAll (fun e' h => he e' (List.mem_append_right _ h))
        (fun e' h => hs e' (List.mem_append_right _ h))
    split_ifs at hr
    · obtain ⟨id, rest, rfl, hid, hr⟩ := hr
      refine List.forall_mem_cons.mpr ⟨fun item hitem => ?_, hrest hr⟩
      exact isSolid_of_renders (fun e' h => he e' (List.mem_append_left _ h))
        (fun e' h => hs e' (List.mem_append_left _ h)) hid hitem
    · exact hrest hr

end

end Solid

end Layout

open Layout

namespace Faithful

variable {E : Engine} {g : Grammar} {L : Layout} {id : ItemId} {item : Item}

/-- The delimiters of a scope are its words. -/
theorem delimiter (hL : Faithful E g L) {place : Place} {s : ScopeDef} {scope : ScopeId}
    {opening closing id' : ItemId} {body : List ItemId} (hs : Reached g (.scope place s))
    (hhas : L.Has (.scope place s) id) (hid : L.item? id = some (.scope scope opening closing body))
    (hmem : id' ∈ [opening, closing]) :
    ∃ word, word ≠ "" ∧ L.IsWord E word false true id' := by
  obtain ⟨⟨hne, hne'⟩, _, _, _, _, hid', -, hopening, hclosing, -⟩ := hL.compiles _ _ hs hhas
  obtain ⟨rfl, rfl, rfl, rfl⟩ := Item.scope.inj (Option.some.inj (hid'.symm.trans hid))
  simp only [List.mem_cons, List.not_mem_nil, or_false] at hmem
  rcases hmem with rfl | rfl
  · exact ⟨s.opening, hne, hopening⟩
  · exact ⟨s.closing, hne', hclosing⟩

/-- The item of a definition leads where the definition leads. -/
theorem acc_of_has (hL : Faithful E g L) {place : Place} (hacc : Acc g.Leads place) :
    ∀ {d : Definition} {id : ItemId}, Reached g d → d.place = place → L.Has d id →
      Acc L.Leads id := by
  induction hacc with
  | intro place _ ih =>
    intro d id hd hplace hhas
    subst hplace
    have hcompiles := hL.compiles d id hd hhas
    cases d with
    | scope place s =>
      obtain ⟨-, scope, opening, closing, body, hid, -, hopening, -, -⟩ := hcompiles
      refine acc_of_leading hid (List.forall_mem_singleton.mpr ?_)
      exact hopening.acc
    | pattern place p =>
      obtain ⟨-, pattern, alternatives, hid, -, hall⟩ := hcompiles
      refine acc_of_leading hid fun r hr => ?_
      obtain ⟨source, hs, es, elements, hes, hrenders, hcloses⟩ := exists_of_forall₂ hall r hr
      refine hcloses.acc (acc_of_rendersAll (fun e he d' id' ht hid' => ?_) hrenders)
      have he' : e ∈ p.parts :=
        PatternDef.mem_parts.mpr ⟨source, hs, es, hes, leadingOf_subset p es e he⟩
      exact ih d'.place ⟨_, hd.definitionAt?, mem_leading hs hes he ht⟩
        (.step hd (.element he' ht)) rfl hid'

/-- No way leads on forever from any item. -/
theorem acc (hL : Faithful E g L) (hg : ∀ d, Reached g d → Acc g.Leads d.place)
    (hid : L.item? id = some item) : Acc L.Leads id := by
  have hhas : ∀ d id, Reached g d → L.Has d id → Acc L.Leads id := fun d id hd h =>
    hL.acc_of_has (hg d hd) hd rfl h
  have hfounded : ∀ {place p e}, Reached g (.pattern place p) → e ∈ p.parts →
      Founded g L place p e := fun hp he d id ht h => hhas d id (.step hp (.element he ht)) h
  cases hL.origins id item hid with
  | root =>
    obtain ⟨body, hroot⟩ := (hL.root _).mpr rfl
    refine acc_of_leading hroot fun r hr => ?_
    obtain ⟨d, hd, h⟩ := exists_of_forall₂ (hL.body body hroot) r hr
    exact hhas d r (.root hd) h
  | definition hd h => exact hhas _ id hd h
  | delimiter hs h hscope hmem =>
    obtain ⟨word, -, hword⟩ := hL.delimiter hs h hscope hmem
    exact hword.acc
  | @element _ p e _ hp he hr =>
    refine acc_of_renders (fun e' he' => hfounded hp ?_) hr
    exact PatternDef.mem_parts_of_mem_parts he (e.leading_subset p e' he')
  | @source _ p source _ hp hs hr =>
    obtain ⟨es, elements, hes, hall, hcloses⟩ := hr
    refine hcloses.acc (acc_of_rendersAll (fun e he => hfounded hp ?_) hall)
    exact PatternDef.mem_parts.mpr ⟨source, hs, es, hes, leadingOf_subset p es e he⟩
  | builtin _ ht => exact ht.acc

/-- All inner items are solid. -/
theorem isSolid (hL : Faithful .standard g L) (hg : ∀ d, Reached g d → d.IsSolid)
    (hid : L.item? id = some item) (hinner : ∀ body, item ≠ .grammar body) : item.IsSolid := by
  cases hL.origins id item hid with
  | root =>
    obtain ⟨body, hroot⟩ := (hL.root _).mpr rfl
    exact absurd (Option.some.inj (hid.symm.trans hroot)) (hinner body)
  | definition hd h =>
    obtain ⟨item', hid', hdef⟩ := (hL.defined id).mpr ⟨_, hd, h⟩
    obtain rfl := Option.some.inj (hid'.symm.trans hid)
    exact isSolid_of_isDefinition hdef
  | delimiter hs h hscope hmem =>
    obtain ⟨word, hne, hword⟩ := hL.delimiter hs h hscope hmem
    obtain rfl := Option.some.inj (hword.2.symm.trans hid)
    simpa [Item.IsSolid] using hne
  | @element _ p e _ hp he hr =>
    have hparts : ∀ e' ∈ e.parts, e' ∈ p.parts := fun e' he' => PatternDef.mem_parts_of_mem_parts he he'
    exact isSolid_of_renders hL hp hparts (fun e' he' => hg _ hp e' (hparts e' he')) hr hid
  | @source _ p source _ hp hs hr =>
    obtain ⟨es, elements, hes, hall, hcloses⟩ := hr
    have hparts : ∀ e ∈ partsOf es, e ∈ p.parts := fun e he =>
      PatternDef.mem_parts.mpr ⟨source, hs, es, hes, he⟩
    refine hcloses.isSolid ?_ hid
    exact isSolid_of_rendersAll hL hp hparts (fun e he => hg _ hp e (hparts e he)) hall
  | @builtin _ _ kind _ _ ht =>
    obtain ⟨finder, hfinder, hid'⟩ := ht
    obtain rfl := Option.some.inj (hid'.symm.trans hid)
    exact consumes_of_standard (consumes_token kind) hfinder

end Faithful

/-- **A grammar without left recursion compiles to a table without left recursion.** -/
theorem Grammar.IsDescending.exists_compile {g : Grammar} (hg : g.IsDescending) :
    ∃ c, g.compile .standard = .ok c ∧ c.IsDescending := by
  obtain ⟨c, hc⟩ := ShaderAssist.exists_compile hg.patterns hg.wellFormed
  obtain ⟨b, hb, rfl⟩ := exists_complete_of_compile hc
  have hL := hb.faithful
  refine ⟨_, hc, ⟨fun id item hid r hr => ?_, fun id item hid => hL.acc hg.founded hid⟩⟩
  obtain ⟨item', hid', hinner⟩ := (hL.inRange id item hid).1 r hr
  exact ⟨item', hid', hL.isSolid hg.solid hid' hinner⟩

end ShaderAssist

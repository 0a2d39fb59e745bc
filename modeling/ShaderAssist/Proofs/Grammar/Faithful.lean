import ShaderAssist.Proofs.Grammar.Compiling
import ShaderAssist.Proofs.Grammar.Growth

/-!
# Compiling is faithful

The definitions in the table of a compiled grammar are closed under references: the translation of an
element that refers to a definition holds the item of that definition. So all reached definitions have an
item (`Compile.Complete.exists_has`), no placeholder is left, and the compiled grammar is the translation
of the grammar (`Faithful`).
-/

namespace ShaderAssist

namespace Layout

variable {E : Engine} {g : Grammar} {L : Layout} {place : Place} {p : PatternDef}

/-! ### Inner elements -/

mutual

/-- With an element, all elements inside it that count are translated. -/
theorem exists_renders_of_mem_parts : ∀ {e : Element} {id : ItemId}, Renders E g L place p e id →
    ∀ e' ∈ e.parts, e'.counts p → ∃ id', Renders E g L place p e' id'
  | .optional inner repeats, id, h, e', he', hcounts => by
    rw [Element.parts] at he'
    rcases List.mem_cons.mp he' with rfl | he'
    · exact ⟨id, h⟩
    · rw [Renders] at h
      obtain ⟨elements, hall, -⟩ := h
      exact exists_renders_of_mem_partsOf hall e' he' hcounts
  | .space, id, h, e', he', _ => ⟨id, by rwa [List.mem_singleton.mp he']⟩
  | .text _, id, h, e', he', _ => ⟨id, by rwa [List.mem_singleton.mp he']⟩
  | .reference _, id, h, e', he', _ => ⟨id, by rwa [List.mem_singleton.mp he']⟩
  | .scope _, id, h, e', he', _ => ⟨id, by rwa [List.mem_singleton.mp he']⟩
  | .regex _, id, h, e', he', _ => ⟨id, by rwa [List.mem_singleton.mp he']⟩

theorem exists_renders_of_mem_partsOf : ∀ {es : List Element} {elements : List SequenceElement},
    RendersAll E g L place p es elements →
      ∀ e' ∈ partsOf es, e'.counts p → ∃ id', Renders E g L place p e' id'
  | [], elements, _, e', he', _ => by
    rw [partsOf] at he'
    cases he'
  | e :: es, elements, h, e', he', hcounts => by
    rw [RendersAll] at h
    rw [partsOf] at he'
    split_ifs at h with hfirst
    · obtain ⟨id, rest, -, hid, hrest⟩ := h
      rcases List.mem_append.mp he' with he' | he'
      · exact exists_renders_of_mem_parts hid e' he' hcounts
      · exact exists_renders_of_mem_partsOf hrest e' he' hcounts
    · rcases List.mem_append.mp he' with he' | he'
      · -- an element that does not count is a space, and has no other element inside
        have hspace : e = .space := by
          cases e <;> simp_all [Element.counts, Element.isSpace]
        subst hspace
        rw [List.mem_singleton.mp he'] at hcounts
        exact absurd hcounts hfirst
      · exact exists_renders_of_mem_partsOf h e' he' hcounts

end

/-- All elements of a translated pattern that count are translated. -/
theorem Compiles.exists_renders {id : ItemId} (h : Compiles E g L (.pattern place p) id)
    {e : Element} (he : e ∈ p.parts) (hcounts : e.counts p) :
    ∃ id', Renders E g L place p e id' := by
  obtain ⟨-, pattern, alternatives, -, -, hall⟩ := h
  obtain ⟨source, hs, es, hes, he⟩ := PatternDef.mem_parts.mp he
  obtain ⟨id', -, es', elements, hes', hrenders, -⟩ := exists_of_forall₂ hall.flip source hs
  obtain rfl : es = es' := Except.ok.inj (hes.symm.trans hes')
  exact exists_renders_of_mem_partsOf hrenders e he hcounts

/-- The translation of an element that refers to a definition holds its item. -/
theorem Renders.exists_has {e : Element} {id : ItemId} {d : Definition}
    (h : Renders E g L place p e id) (ht : e.target? g place p = some d) : ∃ id', L.Has d id' := by
  cases e with
  | text | space | regex | optional => cases ht
  | scope name =>
    rw [Renders] at h
    obtain ⟨d', hd', hid⟩ := h
    obtain rfl : d' = d := Option.some.inj (hd'.symm.trans ht)
    exact ⟨id, hid⟩
  | reference name =>
    rw [Renders, RendersReference] at h
    simp only [Element.target?] at ht
    split_ifs at h ht
    obtain ⟨inner, -, hmeans⟩ := h
    unfold IsMeaning at hmeans
    split at ht
    · cases ht
    · rename_i htoken
      rw [htoken, ht] at hmeans
      exact ⟨inner, hmeans⟩

/-- What a translated definition refers to has an item. -/
theorem Compiles.exists_has {d d' : Definition} {id : ItemId} (h : Compiles E g L d id)
    (hd : Mentions g d d') : ∃ id', L.Has d' id' := by
  cases hd with
  | body hd =>
    obtain ⟨-, scope, opening, closing, body, -, -, -, -, hall⟩ := h
    obtain ⟨id', -, hid'⟩ := exists_of_forall₂ hall.flip d' hd
    exact ⟨id', hid'⟩
  | @element _ p e _ he ht =>
    have hcounts : e.counts p := by
      cases e <;> simp_all [Element.counts, Element.isSpace, Element.target?]
    obtain ⟨id', hid'⟩ := h.exists_renders he hcounts
    exact hid'.exists_has ht

end Layout

open Layout

namespace Compile

variable {E : Engine} {g : Grammar} {b : GrammarBuild} {d : Definition}

theorem Complete.compiles (hb : Complete E g b) (hd : Reached g d) {id : ItemId}
    (hid : (b.layout g).Has d id) : Compiles E g (b.layout g) d id :=
  hb.closed d id hd hid List.not_mem_nil

/-- **All reached definitions have an item.** -/
theorem Complete.exists_has (hb : Complete E g b) (hd : Reached g d) :
    ∃ id, (b.layout g).Has d id := by
  induction hd with
  | @root d hd =>
    obtain ⟨body, -, hall⟩ := hb.body
    obtain ⟨id, -, hid⟩ := exists_of_forall₂ hall.flip d hd
    exact ⟨id, hid⟩
  | step hd hmentions ih =>
    obtain ⟨id, hid⟩ := ih
    exact (hb.compiles hd hid).exists_has hmentions

end Compile

/-- What a grammar compiles to is taken from complete tables. -/
theorem exists_complete_of_compile {E : Engine} {g : Grammar} {c : CompiledGrammar} (h : g.compile E = .ok c) :
    ∃ b, Compile.Complete E g b ∧ (b.layout g).toCompiledGrammar = c := by
  have hrun := Compile.runs_document E g
  unfold Compile.Runs at hrun
  unfold Grammar.compile at h
  rcases hd : (Compile.document E g).run {} with e | ⟨u, b⟩
  · rw [hd] at h; cases h
  · rw [hd] at h hrun
    exact ⟨b, hrun, Except.ok.inj h⟩

/-- **A faithful translation of a grammar.** -/
structure Faithful (E : Engine) (g : Grammar) (L : Layout) : Prop where
  /-- The first item is the whole document, and no other one is. -/
  root : ∀ id, (∃ body, L.item? id = some (.grammar body)) ↔ id = CompiledGrammar.root
  /-- The document has one item for each of its patterns, in their order. -/
  body : ∀ body, L.item? CompiledGrammar.root = some (.grammar body) →
    List.Forall₂ L.Has (placed .root [] g.patterns) body
  /-- All numbers in an item are numbers of the tables, and no item refers to the document. -/
  inRange : ∀ id item, L.item? id = some item → (∀ r ∈ item.references, L.IsInner r) ∧
    (∀ pattern ∈ item.patternId?, (L.pattern? pattern).isSome) ∧
    ∀ scope ∈ item.scopeId?, (L.scope? scope).isSome
  /-- A reached definition has one item. -/
  hasOne : ∀ d, Reached g d → ∃! id, L.Has d id
  /-- Different definitions have different items. -/
  injective : ∀ d d' id, Reached g d → Reached g d' → L.Has d id → L.Has d' id → d = d'
  /-- The alternations and scopes are the items of the reached definitions. -/
  defined : ∀ id, (∃ item, L.item? id = some item ∧ item.isDefinition) ↔
    ∃ d, Reached g d ∧ L.Has d id
  /-- The patterns are numbered in the order of their alternations, and there are no others. -/
  patternIds : L.items.toList.filterMap Item.patternId? =
    (List.range L.patterns.size).map PatternId.mk
  /-- The scopes are numbered in the order of their items, and there are no others. -/
  scopeIds : L.items.toList.filterMap Item.scopeId? = (List.range L.scopes.size).map ScopeId.mk
  /-- The item of a definition is its translation. -/
  compiles : ∀ d id, Reached g d → L.Has d id → Compiles E g L d id
  /-- Every item is the translation of something in a reached definition. -/
  origins : ∀ id item, L.item? id = some item → Stems E g L id

namespace Layout.Numbered

variable {L : Layout} {id : ItemId} {item : Item}

theorem isSome_pattern? (hn : L.Numbered) (hid : L.item? id = some item) {pattern : PatternId}
    (hp : pattern ∈ item.patternId?) : (L.pattern? pattern).isSome := by
  have hmem : pattern ∈ L.items.toList.filterMap Item.patternId? :=
    List.mem_filterMap.mpr ⟨item, Array.mem_toList_iff.mpr (Array.mem_of_getElem? hid), hp⟩
  rw [hn.patternIds] at hmem
  obtain ⟨i, hi, rfl⟩ := List.mem_map.mp hmem
  unfold CompiledGrammar.pattern?
  rw [Array.getElem?_eq_getElem (List.mem_range.mp hi)]
  rfl

theorem isSome_scope? (hn : L.Numbered) (hid : L.item? id = some item) {scope : ScopeId}
    (hs : scope ∈ item.scopeId?) : (L.scope? scope).isSome := by
  have hmem : scope ∈ L.items.toList.filterMap Item.scopeId? :=
    List.mem_filterMap.mpr ⟨item, Array.mem_toList_iff.mpr (Array.mem_of_getElem? hid), hs⟩
  rw [hn.scopeIds] at hmem
  obtain ⟨i, hi, rfl⟩ := List.mem_map.mp hmem
  unfold CompiledGrammar.scope?
  rw [Array.getElem?_eq_getElem (List.mem_range.mp hi)]
  rfl

/-- A place has one item. -/
theorem eq_of_has {d : Definition} {id' : ItemId} (hn : L.Numbered) (h : L.Has d id)
    (h' : L.Has d id') : id = id' := by
  have heq : (d.place, id) = (d.place, id') := List.inj_on_of_nodup_map hn.places h h' rfl
  exact (Prod.mk.inj heq).2

/-- An item belongs to one place. -/
theorem place_eq_of_has {d d' : Definition} (hn : L.Numbered) (h : L.Has d id)
    (h' : L.Has d' id) : d.place = d'.place := by
  have heq : (d.place, id) = (d'.place, id) := List.inj_on_of_nodup_map hn.ids h h' rfl
  exact (Prod.mk.inj heq).1

end Layout.Numbered

theorem Compile.Complete.faithful {E : Engine} {g : Grammar} {b : GrammarBuild} (hb : Compile.Complete E g b) :
    Faithful E g (b.layout g) := by
  have hn := hb.numbered
  obtain ⟨body, hroot, hall⟩ := hb.body
  constructor
  case root =>
    intro id
    constructor
    · rintro ⟨body', hid⟩
      exact hn.root id body' hid
    · rintro rfl
      exact ⟨body, hroot⟩
  case body =>
    intro body' hroot'
    obtain rfl : body = body' := by
      rw [hroot, Option.some.injEq, Item.grammar.injEq] at hroot'
      exact hroot'
    exact hall
  case inRange =>
    intro id item hid
    exact ⟨hn.references id item hid, fun _ hp => hn.isSome_pattern? hid hp,
      fun _ hs => hn.isSome_scope? hid hs⟩
  case hasOne =>
    intro d hd
    obtain ⟨id, hid⟩ := hb.exists_has hd
    exact ⟨id, hid, fun id' hid' => hn.eq_of_has hid' hid⟩
  case injective =>
    exact fun d d' id hd hd' hid hid' => hd.eq_of_place hd' (hn.place_eq_of_has hid hid')
  case defined =>
    intro id
    rw [← hn.defined id, List.mem_map]
    constructor
    · rintro ⟨⟨place, _⟩, he, rfl⟩
      obtain ⟨d, hd, hplace⟩ := hb.reached _ he
      subst hplace
      exact ⟨d, hd, he⟩
    · rintro ⟨d, -, hid⟩
      exact ⟨_, hid, rfl⟩
  case patternIds => exact hn.patternIds
  case scopeIds => exact hn.scopeIds
  case compiles => exact fun d id hd hid => hb.compiles hd hid
  case origins => exact fun id item hid => hb.origins id (CompiledGrammar.lt_size_of_item? hid)

end ShaderAssist

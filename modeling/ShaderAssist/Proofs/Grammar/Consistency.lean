import ShaderAssist.Proofs.Grammar.Translation

/-!
# Tables under construction

While a grammar is compiled, some definitions are still open: their item is there and is referred to, but
its body is not known yet. `Compile.Consistent` says what holds of the tables with a list of open items at
any time: the numbers fit, all definitions that are not open are translated, and every item comes from
somewhere. The few changes that compiling makes keep it: an item is appended, a token is remembered, a
definition is opened, and an open item gets its body.
-/

namespace ShaderAssist

/-- Whether an item is the item of a definition. -/
def Item.isDefinition : Item → Bool
  | alternation .. | scope .. => true
  | _ => false

theorem Item.isDefinition_frame (item : Item) : item.frame.isDefinition = item.isDefinition := by
  cases item <;> rfl

theorem Item.isDefinition_of_isPlain {item : Item} (h : item.isPlain) : item.isDefinition = false := by
  cases item <;> simp_all [isPlain, isDefinition]

namespace Layout

open CompiledGrammar

variable {L L' : Layout} {id : ItemId} {item : Item}

/-! ### Numbers -/

/-- An item that others may refer to: it is there, and it is not a whole document. -/
def IsInner (L : Layout) (id : ItemId) : Prop :=
  ∃ item, L.item? id = some item ∧ ∀ body, item ≠ .grammar body

theorem isInner_of_isPlain (h : L.item? id = some item) (hplain : item.isPlain) : L.IsInner id := by
  refine ⟨item, h, ?_⟩
  rintro body rfl
  cases hplain

theorem IsInner.mono (h : L ≤ L') (hi : L.IsInner id) : L'.IsInner id := by
  obtain ⟨item, hitem, hne⟩ := hi
  obtain ⟨item', hitem', hframe⟩ := item?_frame_of_le h hitem
  refine ⟨item', hitem', ?_⟩
  rintro body rfl
  cases item <;> simp_all [Item.frame]

/-- **The numbers of a layout fit.** The definitions in the table are told apart by their places and by
their items, and these are all alternations and scopes. Patterns and scopes are numbered in the order of
their items. An item refers to inner items only, and at most the first item is a whole document. -/
structure Numbered (L : Layout) : Prop where
  places : (L.table.map Prod.fst).Nodup
  ids : (L.table.map Prod.snd).Nodup
  defined : ∀ id, id ∈ L.table.map Prod.snd ↔ ∃ item, L.item? id = some item ∧ item.isDefinition
  patternIds : L.items.toList.filterMap Item.patternId? = (List.range L.patterns.size).map PatternId.mk
  scopeIds : L.items.toList.filterMap Item.scopeId? = (List.range L.scopes.size).map ScopeId.mk
  references : ∀ id item, L.item? id = some item → ∀ r ∈ item.references, L.IsInner r
  root : ∀ id body, L.item? id = some (.grammar body) → id = CompiledGrammar.root

theorem Numbered.isInner_of_has {d : Definition} (hn : L.Numbered) (h : L.Has d id) :
    L.IsInner id := by
  obtain ⟨item, hitem, hd⟩ := (hn.defined id).mp (List.mem_map_of_mem h)
  refine ⟨item, hitem, ?_⟩
  rintro body rfl
  cases hd

theorem Numbered.lt_size_of_has {d : Definition} (hn : L.Numbered) (h : L.Has d id) :
    id.index < L.items.size := by
  obtain ⟨item, hitem, -⟩ := hn.isInner_of_has h
  exact lt_size_of_item? hitem

theorem item?_push (hitems : L'.items = L.items.push item) (id : ItemId) :
    L'.item? id = if id.index = L.items.size then some item else L.item? id := by
  unfold CompiledGrammar.item?
  rw [hitems, Array.getElem?_push]

theorem item?_push_of_lt (hitems : L'.items = L.items.push item) (h : id.index < L.items.size) :
    L'.item? id = L.item? id := by
  rw [item?_push hitems, if_neg (by omega)]

theorem item?_push_self (hitems : L'.items = L.items.push item) :
    L'.item? ⟨L.items.size⟩ = some item := by
  rw [item?_push hitems, if_pos rfl]

/-- A layout with one more item is numbered, if a definition comes with an entry of the table and with the
next number. -/
theorem Numbered.push (hn : L.Numbered) (hitems : L'.items = L.items.push item)
    (hrefs : ∀ r ∈ item.references, L.IsInner r) (hgrammar : ∀ body, item ≠ .grammar body)
    (hpatterns : (List.range L.patterns.size).map PatternId.mk ++ item.patternId?.toList =
      (List.range L'.patterns.size).map PatternId.mk)
    (hscopes : (List.range L.scopes.size).map ScopeId.mk ++ item.scopeId?.toList =
      (List.range L'.scopes.size).map ScopeId.mk)
    (htable : (item.isDefinition = false ∧ L'.table = L.table) ∨
      item.isDefinition ∧ ∃ place, place ∉ L.table.map Prod.fst ∧
        L'.table = (place, ⟨L.items.size⟩) :: L.table) :
    L'.Numbered := by
  have hinner : ∀ r, L.IsInner r → L'.IsInner r := by
    rintro r ⟨old, hold, hne⟩
    exact ⟨old, (item?_push_of_lt hitems (lt_size_of_item? hold)).trans hold, hne⟩
  have hnew : (⟨L.items.size⟩ : ItemId) ∉ L.table.map Prod.snd := by
    intro hmem
    obtain ⟨old, hold, -⟩ := (hn.defined _).mp hmem
    exact Nat.lt_irrefl _ (lt_size_of_item? hold)
  constructor
  case places =>
    rcases htable with ⟨-, ht⟩ | ⟨-, place, hplace, ht⟩ <;> rw [ht]
    · exact hn.places
    · exact List.nodup_cons.mpr ⟨hplace, hn.places⟩
  case ids =>
    rcases htable with ⟨-, ht⟩ | ⟨-, place, -, ht⟩ <;> rw [ht]
    · exact hn.ids
    · exact List.nodup_cons.mpr ⟨hnew, hn.ids⟩
  case defined =>
    intro id
    rw [item?_push hitems]
    by_cases hid : id.index = L.items.size
    · obtain rfl : id = ⟨L.items.size⟩ := by cases id; simp_all
      rw [if_pos rfl]
      rcases htable with ⟨hd, ht⟩ | ⟨hd, place, -, ht⟩ <;> rw [ht]
      · simp only [hnew, Option.some.injEq, false_iff]
        rintro ⟨_, rfl, h⟩
        rw [hd] at h
        cases h
      · simp [hd]
    · rw [if_neg hid, ← hn.defined id]
      rcases htable with ⟨-, ht⟩ | ⟨-, place, -, ht⟩ <;> rw [ht]
      rw [List.map_cons, List.mem_cons, or_iff_right]
      rintro rfl
      exact hid rfl
  case patternIds =>
    rw [hitems, Array.toList_push, List.filterMap_append, hn.patternIds, ← hpatterns]
    cases item <;> rfl
  case scopeIds =>
    rw [hitems, Array.toList_push, List.filterMap_append, hn.scopeIds, ← hscopes]
    cases item <;> rfl
  case references =>
    intro id old hid r hr
    rw [item?_push hitems] at hid
    split_ifs at hid with h
    · obtain rfl := Option.some.inj hid
      exact hinner r (hrefs r hr)
    · exact hinner r (hn.references id old hid r hr)
  case root =>
    intro id body hid
    rw [item?_push hitems] at hid
    split_ifs at hid with h
    · exact absurd (Option.some.inj hid) (hgrammar body)
    · exact hn.root id body hid

theorem le_of_push (hitems : L'.items = L.items.push item)
    (hpatterns : L.patterns.toList <+: L'.patterns.toList)
    (hscopes : L.scopes.toList <+: L'.scopes.toList) (htable : L.table <:+ L'.table) : L ≤ L' := by
  refine ⟨?_, hpatterns, hscopes, htable⟩
  unfold frames
  rw [hitems, Array.toList_push, List.map_append]
  exact List.prefix_append _ _

/-! ### Bodies -/

/-- The layout with another item at a number. -/
def fill (L : Layout) (id : ItemId) (item : Item) : Layout :=
  { L with items := L.items.setIfInBounds id.index item }

theorem item?_fill (h : id.index < L.items.size) (item : Item) (id' : ItemId) :
    (L.fill id item).item? id' = if id' = id then some item else L.item? id' := by
  unfold fill CompiledGrammar.item?
  rw [Array.getElem?_setIfInBounds]
  by_cases hid : id.index = id'.index
  · rw [if_pos hid, if_pos (by omega), if_pos (by cases id; cases id'; simp_all)]
  · rw [if_neg hid, if_neg (by rintro rfl; exact hid rfl)]

section Fill
variable {old : Item} (hold : L.item? id = some old) (hframe : item.frame = old.frame)
include hold hframe

theorem frames_fill : (L.fill id item).frames = L.frames := by
  refine List.ext_getElem? fun i => ?_
  have hi := item?_fill (lt_size_of_item? hold) item ⟨i⟩
  rw [getElem?_frames, getElem?_frames]
  unfold CompiledGrammar.item? at hi hold
  rw [hi]
  split_ifs with h
  · subst h
    rw [hold, Option.map_some, Option.map_some, hframe]
  · rfl

theorem le_fill : L ≤ L.fill id item :=
  ⟨(frames_fill hold hframe).symm ▸ List.prefix_rfl, List.prefix_rfl, List.prefix_rfl,
    List.suffix_rfl⟩

theorem fill_le : L.fill id item ≤ L :=
  ⟨(frames_fill hold hframe).symm ▸ List.prefix_rfl, List.prefix_rfl, List.prefix_rfl,
    List.suffix_rfl⟩

/-- A layout stays numbered when an item gets a body. -/
theorem Numbered.fill (hn : L.Numbered)
    (hrefs : ∀ r ∈ item.references, L.IsInner r) : (L.fill id item).Numbered := by
  have hle := le_fill hold hframe
  have hge := fill_le hold hframe
  have hmap : ∀ {α : Type} (f : Item → Option α), (∀ item, f item.frame = f item) →
      (L.fill id item).items.toList.filterMap f = L.items.toList.filterMap f := by
    intro α f hf
    have hfun : f ∘ Item.frame = f := funext hf
    rw [← hfun, ← List.filterMap_map, ← List.filterMap_map]
    exact congrArg (List.filterMap f) (frames_fill hold hframe)
  refine ⟨hn.places, hn.ids, fun id' => (hn.defined id').trans ⟨?_, ?_⟩, ?_, ?_, ?_, ?_⟩
  · rintro ⟨x, hx, hd⟩
    obtain ⟨y, hy, hxy⟩ := item?_frame_of_le hle hx
    exact ⟨y, hy, by rw [← Item.isDefinition_frame, hxy, Item.isDefinition_frame, hd]⟩
  · rintro ⟨x, hx, hd⟩
    obtain ⟨y, hy, hxy⟩ := item?_frame_of_le hge hx
    exact ⟨y, hy, by rw [← Item.isDefinition_frame, hxy, Item.isDefinition_frame, hd]⟩
  · exact (hmap _ Item.patternId?_frame).trans hn.patternIds
  · exact (hmap _ Item.scopeId?_frame).trans hn.scopeIds
  · intro id' x hx r hr
    rw [item?_fill (lt_size_of_item? hold)] at hx
    split_ifs at hx with h
    · obtain rfl := Option.some.inj hx
      exact (hrefs r hr).mono hle
    · exact (hn.references id' x hx r hr).mono hle
  · intro id' body hx
    obtain ⟨y, hy, hxy⟩ := item?_frame_of_le hge hx
    cases y <;> simp only [Item.frame, reduceCtorEq] at hxy
    exact hn.root id' _ hy

end Fill

end Layout

/-! ### Tables -/

/-- The layout of tables under construction. -/
def GrammarBuild.layout (g : Grammar) (b : GrammarBuild) : Layout :=
  ⟨⟨g.name, b.items, b.patterns, b.scopes⟩, b.compiled⟩

/-- The tables with one more item. -/
def GrammarBuild.withItem (b : GrammarBuild) (item : Item) : GrammarBuild :=
  { b with items := b.items.push item }

theorem GrammarBuild.size_withItem (b : GrammarBuild) (item : Item) :
    (b.withItem item).items.size = b.items.size + 1 :=
  Array.size_push _

/-- The tables with another item at a number. -/
def GrammarBuild.withBody (b : GrammarBuild) (id : ItemId) (item : Item) : GrammarBuild :=
  { b with items := b.items.setIfInBounds id.index item }

namespace Compile

open Layout CompiledGrammar

variable {E : Engine} {g : Grammar} {opened : List ItemId} {b : GrammarBuild} {item : Item} {id : ItemId}

/-- **The tables are in order**, up to the bodies of the items that are open. -/
structure Consistent (E : Engine) (g : Grammar) (opened : List ItemId) (b : GrammarBuild) : Prop where
  numbered : (b.layout g).Numbered
  reached : ∀ e ∈ b.compiled, ∃ d, Reached g d ∧ d.place = e.1
  closed : ∀ d id, Reached g d → (b.layout g).Has d id → id ∉ opened → Compiles E g (b.layout g) d id
  origins : ∀ id, id.index < b.items.size → Stems E g (b.layout g) id
  tokens : ∀ e ∈ b.tokens, (b.layout g).IsBuiltin E e.1.1 e.1.2 e.2

/-- The tables of a grammar of which only the whole document is there. -/
theorem consistent_root (E : Engine) (g : Grammar) :
    Consistent E g [CompiledGrammar.root] { items := #[.grammar []] } := by
  have hitem : ∀ id item, (GrammarBuild.layout g { items := #[.grammar []] }).item? id = some item →
      id = CompiledGrammar.root ∧ item = .grammar [] := by
    intro id item h
    have hlt := lt_size_of_item? h
    obtain ⟨i⟩ := id
    obtain rfl : i = 0 := Nat.lt_one_iff.mp hlt
    exact ⟨rfl, (Option.some.inj h).symm⟩
  constructor
  case numbered =>
    refine ⟨List.nodup_nil, List.nodup_nil, fun id => ⟨fun h => (by cases h), ?_⟩, rfl, rfl, ?_, ?_⟩
    · rintro ⟨item, h, hd⟩
      rw [(hitem id item h).2] at hd
      cases hd
    · intro id item h r hr
      rw [(hitem id item h).2] at hr
      cases hr
    · exact fun id body h => (hitem id _ h).1
  case reached => exact fun e h => by cases h
  case closed => exact fun d id _ h => by cases h
  case origins =>
    rintro ⟨i⟩ h
    obtain rfl : i = 0 := Nat.lt_one_iff.mp h
    exact .root
  case tokens => exact fun e h => by cases h

theorem le_withItem (g : Grammar) (b : GrammarBuild) (item : Item) :
    b.layout g ≤ (b.withItem item).layout g :=
  le_of_push rfl List.prefix_rfl List.prefix_rfl List.suffix_rfl

theorem numbered_withItem (hn : (b.layout g).Numbered) (hplain : item.isPlain)
    (hrefs : ∀ r ∈ item.references, (b.layout g).IsInner r) :
    ((b.withItem item).layout g).Numbered := by
  have hnone : item.patternId? = none ∧ item.scopeId? = none ∧ ∀ body, item ≠ .grammar body := by
    cases item <;> simp_all [Item.isPlain, Item.patternId?, Item.scopeId?]
  refine hn.push rfl hrefs hnone.2.2 ?_ ?_ (Or.inl ⟨Item.isDefinition_of_isPlain hplain, rfl⟩)
  · rw [hnone.1]
    exact List.append_nil _
  · rw [hnone.2.1]
    exact List.append_nil _

/-- **An item is appended.** -/
theorem Consistent.withItem (hb : Consistent E g opened b) (hplain : item.isPlain)
    (hrefs : ∀ r ∈ item.references, (b.layout g).IsInner r)
    (horigin : Stems E g ((b.withItem item).layout g) ⟨b.items.size⟩) :
    Consistent E g opened (b.withItem item) := by
  have hle := le_withItem g b item
  constructor
  case numbered => exact numbered_withItem hb.numbered hplain hrefs
  case reached => exact hb.reached
  case closed =>
    intro d id hd hid hopen
    have hlt : id.index < (b.layout g).items.size := hb.numbered.lt_size_of_has hid
    exact (hb.closed d id hd hid hopen).mono hle (item?_push_of_lt rfl hlt)
  case origins =>
    intro id hid
    rw [b.size_withItem] at hid
    rcases Nat.lt_succ_iff_lt_or_eq.mp hid with h | h
    · exact (hb.origins id h).mono hle
    · obtain rfl : id = ⟨b.items.size⟩ := by cases id; simp_all
      exact horigin
  case tokens => exact fun e he => (hb.tokens e he).mono hle

/-- **A token is remembered.** -/
theorem Consistent.remember_token {kind : TokenKind} {crossLine : Bool} (hb : Consistent E g opened b)
    (ht : (b.layout g).IsBuiltin E kind crossLine id) :
    Consistent E g opened { b with tokens := ((kind, crossLine), id) :: b.tokens } where
  numbered := hb.numbered
  reached := hb.reached
  closed := hb.closed
  origins := hb.origins
  tokens := List.forall_mem_cons.mpr ⟨ht, hb.tokens⟩

/-- **A definition is opened.** Its item is the last one, and it may bring items of its own. -/
theorem Consistent.opens {b' : GrammarBuild} {d : Definition} (hb : Consistent E g opened b)
    (hd : Reached g d) (hnumbered : (b'.layout g).Numbered) (hle : b.layout g ≤ b'.layout g)
    (hcompiled : b'.compiled = (d.place, id) :: b.compiled) (htokens : b'.tokens = b.tokens)
    (hitems : ∀ id', id'.index < b.items.size → (b'.layout g).item? id' = (b.layout g).item? id')
    (horigins : ∀ i, b.items.size ≤ i → i < b'.items.size → Stems E g (b'.layout g) ⟨i⟩) :
    Consistent E g (id :: opened) b' := by
  constructor
  case numbered => exact hnumbered
  case reached =>
    rw [hcompiled]
    exact List.forall_mem_cons.mpr ⟨⟨d, hd, rfl⟩, hb.reached⟩
  case closed =>
    intro d' id' hd' hid' hopen
    rw [List.mem_cons, not_or] at hopen
    have hid : (b.layout g).Has d' id' := by
      have hmem : (d'.place, id') ∈ (d.place, id) :: b.compiled := hcompiled ▸ hid'
      rcases List.mem_cons.mp hmem with h | h
      · exact absurd (Prod.mk.inj h).2 hopen.1
      · exact h
    exact (hb.closed d' id' hd' hid hopen.2).mono hle
      (hitems id' (hb.numbered.lt_size_of_has hid))
  case origins =>
    intro id' hid'
    by_cases h : id'.index < b.items.size
    · exact (hb.origins id' h).mono hle
    · exact horigins id'.index (Nat.le_of_not_lt h) hid'
  case tokens =>
    rw [htokens]
    exact fun e he => (hb.tokens e he).mono hle

/-- The tables with a pattern that is open. -/
def openPattern (place : Place) (p : PatternDef) (b : GrammarBuild) : GrammarBuild :=
  { b.withItem (.alternation ⟨b.patterns.size⟩ []) with
    patterns := b.patterns.push ⟨p.name, p.id, p.collector, p.provider⟩
    compiled := (place, ⟨b.items.size⟩) :: b.compiled }

theorem le_openPattern (g : Grammar) (place : Place) (p : PatternDef) (b : GrammarBuild) :
    b.layout g ≤ (openPattern place p b).layout g := by
  refine le_of_push rfl ?_ List.prefix_rfl (List.suffix_cons _ _)
  unfold openPattern GrammarBuild.layout
  rw [Array.toList_push]
  exact List.prefix_append _ _

theorem consistent_openPattern {place : Place} {p : PatternDef} (hb : Consistent E g opened b)
    (hd : Reached g (.pattern place p)) (hnew : place ∉ b.compiled.map Prod.fst) :
    Consistent E g (⟨b.items.size⟩ :: opened) (openPattern place p b) := by
  refine hb.opens hd ?_ (le_openPattern g place p b) rfl rfl (fun id' h => item?_push_of_lt rfl h) ?_
  · refine hb.numbered.push rfl (fun r hr => by cases hr) (fun body => Item.noConfusion) ?_
      (List.append_nil _) (Or.inr ⟨rfl, place, hnew, rfl⟩)
    have hpatterns : ((openPattern place p b).layout g).patterns.size = b.patterns.size + 1 :=
      Array.size_push _
    rw [hpatterns, List.range_succ, List.map_append]
    rfl
  · intro i hi hi'
    have hsize : (openPattern place p b).items.size = b.items.size + 1 := b.size_withItem _
    obtain rfl : i = b.items.size := by omega
    exact .definition hd (List.mem_cons_self ..)

/-- The tables with the delimiters of a scope. -/
def withDelimiters (s : ScopeDef) (b : GrammarBuild) : GrammarBuild :=
  (b.withItem (.text ⟨s.opening.toList, false⟩ true)).withItem (.text ⟨s.closing.toList, false⟩ true)

theorem size_withDelimiters (s : ScopeDef) (b : GrammarBuild) :
    (withDelimiters s b).items.size = b.items.size + 2 := by
  unfold withDelimiters
  rw [GrammarBuild.size_withItem, GrammarBuild.size_withItem]

/-- The tables with a scope that is open. -/
def openScope (place : Place) (s : ScopeDef) (b : GrammarBuild) : GrammarBuild :=
  { (withDelimiters s b).withItem
      (.scope ⟨b.scopes.size⟩ ⟨b.items.size⟩ ⟨b.items.size + 1⟩ []) with
    scopes := b.scopes.push ⟨s.name, s.collector, s.provider⟩
    compiled := (place, ⟨b.items.size + 2⟩) :: b.compiled }

theorem withDelimiters_le (g : Grammar) (place : Place) (s : ScopeDef) (b : GrammarBuild) :
    (withDelimiters s b).layout g ≤ (openScope place s b).layout g := by
  refine le_of_push rfl List.prefix_rfl ?_ (List.suffix_cons _ _)
  unfold openScope withDelimiters GrammarBuild.withItem GrammarBuild.layout
  rw [Array.toList_push]
  exact List.prefix_append _ _

theorem le_openScope (g : Grammar) (place : Place) (s : ScopeDef) (b : GrammarBuild) :
    b.layout g ≤ (openScope place s b).layout g :=
  ((le_withItem g b _).trans (le_withItem g _ _)).trans (withDelimiters_le g place s b)

theorem item?_withDelimiters (g : Grammar) (s : ScopeDef) (b : GrammarBuild) :
    ((withDelimiters s b).layout g).item? ⟨b.items.size⟩ =
        some (.text ⟨s.opening.toList, false⟩ true) ∧
      ((withDelimiters s b).layout g).item? ⟨b.items.size + 1⟩ =
        some (.text ⟨s.closing.toList, false⟩ true) := by
  unfold withDelimiters GrammarBuild.withItem GrammarBuild.layout item?
  simp only [Array.getElem?_push, Array.size_push]
  refine ⟨?_, if_pos trivial⟩
  rw [if_neg (by omega), if_pos trivial]

/-- The item of a scope that is open. -/
theorem item?_openScope (g : Grammar) (place : Place) (s : ScopeDef) (b : GrammarBuild) :
    ((openScope place s b).layout g).item? ⟨b.items.size + 2⟩ =
      some (.scope ⟨b.scopes.size⟩ ⟨b.items.size⟩ ⟨b.items.size + 1⟩ []) := by
  rw [← size_withDelimiters s b]
  exact item?_push_self (L := (withDelimiters s b).layout g) rfl

theorem consistent_openScope {place : Place} {s : ScopeDef} (hb : Consistent E g opened b)
    (hd : Reached g (.scope place s)) (hnew : place ∉ b.compiled.map Prod.fst) :
    Consistent E g (⟨b.items.size + 2⟩ :: opened) (openScope place s b) := by
  have hsize := size_withDelimiters s b
  have hscope := item?_openScope g place s b
  have hhas : ((openScope place s b).layout g).Has (.scope place s) ⟨b.items.size + 2⟩ :=
    List.mem_cons_self ..
  refine hb.opens hd ?_ (le_openScope g place s b) rfl rfl ?_ ?_
  · have hn : ((withDelimiters s b).layout g).Numbered := by
      refine numbered_withItem (numbered_withItem hb.numbered rfl ?_) rfl ?_ <;>
        exact fun r hr => by cases hr
    refine hn.push rfl ?_ (fun body => Item.noConfusion) (List.append_nil _) ?_
      (Or.inr ⟨rfl, place, hnew, ?_⟩)
    · obtain ⟨hopening, hclosing⟩ := item?_withDelimiters g s b
      refine List.forall_mem_cons.mpr ⟨isInner_of_isPlain hopening rfl, ?_⟩
      exact List.forall_mem_singleton.mpr (isInner_of_isPlain hclosing rfl)
    · have hscopes : ((openScope place s b).layout g).scopes.size = b.scopes.size + 1 :=
        Array.size_push _
      rw [hscopes, List.range_succ, List.map_append]
      rfl
    · show _ = (place, (⟨(withDelimiters s b).items.size⟩ : ItemId)) :: b.compiled
      rw [hsize]
      rfl
  · intro id' h
    refine (item?_push_of_lt (L := (withDelimiters s b).layout g) rfl ?_).trans ?_
    · show _ < (withDelimiters s b).items.size
      omega
    refine (item?_push_of_lt (L := (b.withItem _).layout g) rfl ?_).trans (item?_push_of_lt rfl h)
    show _ < (b.withItem _).items.size
    rw [b.size_withItem]
    omega
  · intro i hi hi'
    have hsize' : (openScope place s b).items.size = (withDelimiters s b).items.size + 1 :=
      GrammarBuild.size_withItem _ _
    obtain rfl | rfl | rfl : i = b.items.size ∨ i = b.items.size + 1 ∨ i = b.items.size + 2 := by
      omega
    · exact .delimiter hd hhas hscope (by simp)
    · exact .delimiter hd hhas hscope (by simp)
    · exact .definition hd hhas

/-- **An open item gets its body.** -/
theorem Consistent.fill {old : Item} (hb : Consistent E g (id :: opened) b)
    (hold : (b.layout g).item? id = some old) (hframe : item.frame = old.frame)
    (hrefs : ∀ r ∈ item.references, (b.layout g).IsInner r)
    (hd : ∀ d, Reached g d → (b.layout g).Has d id →
      Compiles E g ((b.layout g).fill id item) d id) :
    Consistent E g opened (b.withBody id item) := by
  have hle : b.layout g ≤ (b.layout g).fill id item := le_fill hold hframe
  constructor
  case numbered => exact hb.numbered.fill hold hframe hrefs
  case reached => exact hb.reached
  case closed =>
    intro d' id' hd' hid' hopen
    by_cases h : id' = id
    · subst h
      exact hd d' hd' hid'
    · have hopen' : id' ∉ id :: opened := by simp [h, hopen]
      refine (hb.closed d' id' hd' hid' hopen').mono hle ?_
      exact (item?_fill (lt_size_of_item? hold) item id').trans (if_neg h)
  case origins =>
    intro id' hid'
    have hsize : (b.withBody id item).items.size = b.items.size := Array.size_setIfInBounds
    exact (hb.origins id' (hsize ▸ hid')).mono hle
  case tokens => exact fun e he => (hb.tokens e he).mono hle

end Compile

end ShaderAssist

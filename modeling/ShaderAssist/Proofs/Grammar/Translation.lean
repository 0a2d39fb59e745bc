import Mathlib.Data.List.Forall2
import Mathlib.Order.Basic
import ShaderAssist.Proofs.Grammar.Reached

/-!
# What a grammar is translated to

A layout is a compiled grammar with the table that says which item belongs to which definition. This module
says what the items of a definition are (`Layout.Compiles`), element by element (`Layout.Renders`), and
where an item comes from (`Layout.Stems`), without compiling anything.

The items of definitions are filled in late, so when a layout grows, bodies may change and all else stays.
What an element is translated to does not depend on bodies, and stays true when the layout grows
(`Layout.renders_mono`).
-/

namespace ShaderAssist

/-! ### Items without their bodies -/

namespace Item

/-- An item without its body. -/
def frame : Item → Item
  | alternation pattern _ => alternation pattern []
  | scope scope' opening closing _ => scope scope' opening closing []
  | grammar _ => grammar []
  | item => item

/-- Whether an item has no body that is filled in late. -/
def isPlain : Item → Bool
  | alternation .. | scope .. | grammar .. => false
  | _ => true

/-- The pattern of an alternation. -/
def patternId? : Item → Option PatternId
  | alternation pattern _ => some pattern
  | _ => none

/-- The number of a scope. -/
def scopeId? : Item → Option ScopeId
  | scope scope' .. => some scope'
  | _ => none

theorem eq_of_isPlain {item item' : Item} (hplain : item.isPlain) (h : item'.frame = item.frame) :
    item' = item := by
  cases item <;> cases item' <;> simp_all [isPlain, frame]

theorem patternId?_frame (item : Item) : item.frame.patternId? = item.patternId? := by
  cases item <;> rfl

theorem scopeId?_frame (item : Item) : item.frame.scopeId? = item.scopeId? := by
  cases item <;> rfl

end Item

namespace Element

/-- Whether an element of a pattern counts: spaces do only if they are kept. -/
def counts (p : PatternDef) (e : Element) : Bool :=
  p.keepSpace || !e.isSpace

/-- How often an element may stand. -/
def multiplicity : Element → Multiplicity
  | optional _ repeats => if repeats then .many else .optional
  | _ => .one

end Element

/-! ### Layouts -/

/-- A compiled grammar with the items of its definitions. -/
structure Layout extends CompiledGrammar where
  table : List (Place × ItemId)

namespace Layout

/-- The items without their bodies. -/
def frames (L : Layout) : List Item :=
  L.items.toList.map Item.frame

/-- **A layout grows**: items, patterns, scopes and definitions are added, and only the bodies of items may
change. -/
instance : Preorder Layout where
  le L L' := L.frames <+: L'.frames ∧ L.patterns.toList <+: L'.patterns.toList ∧
    L.scopes.toList <+: L'.scopes.toList ∧ L.table <:+ L'.table
  le_refl _ := ⟨List.prefix_rfl, List.prefix_rfl, List.prefix_rfl, List.suffix_rfl⟩
  le_trans _ _ _ h h' := ⟨h.1.trans h'.1, h.2.1.trans h'.2.1, h.2.2.1.trans h'.2.2.1,
    h.2.2.2.trans h'.2.2.2⟩

variable {E : Engine} {L L' : Layout} {id : ItemId} {item : Item}

theorem getElem?_frames (L : Layout) (i : Nat) : L.frames[i]? = L.items[i]?.map Item.frame := by
  unfold frames
  rw [List.getElem?_map, Array.getElem?_toList]

theorem getElem?_of_prefix {α : Type} {xs ys : List α} (h : xs <+: ys) {i : Nat} {x : α}
    (hx : xs[i]? = some x) : ys[i]? = some x := by
  obtain ⟨rest, rfl⟩ := h
  obtain ⟨hi, -⟩ := List.getElem?_eq_some_iff.mp hx
  rw [List.getElem?_append_left hi]
  exact hx

theorem exists_of_forall₂ {α β : Type} {R : α → β → Prop} {as : List α} {bs : List β}
    (h : List.Forall₂ R as bs) : ∀ y ∈ bs, ∃ x ∈ as, R x y := by
  induction h with
  | nil => exact fun y hy => by cases hy
  | cons hxy _ ih =>
    refine List.forall_mem_cons.mpr ⟨⟨_, List.mem_cons_self .., hxy⟩, fun y hy => ?_⟩
    obtain ⟨x, hx, hr⟩ := ih y hy
    exact ⟨x, List.mem_cons_of_mem _ hx, hr⟩

theorem item?_frame_of_le (h : L ≤ L') (hid : L.item? id = some item) :
    ∃ item', L'.item? id = some item' ∧ item'.frame = item.frame := by
  have hframe : L.frames[id.index]? = some item.frame := by
    rw [getElem?_frames]
    exact congrArg (Option.map Item.frame) hid
  have hframe' := getElem?_of_prefix h.1 hframe
  rw [getElem?_frames] at hframe'
  exact Option.map_eq_some_iff.mp hframe'

theorem item?_of_le (h : L ≤ L') (hid : L.item? id = some item) (hplain : item.isPlain) :
    L'.item? id = some item := by
  obtain ⟨item', hid', hframe⟩ := item?_frame_of_le h hid
  rw [hid', Item.eq_of_isPlain hplain hframe]

theorem pattern?_of_le {pattern : PatternId} {info : PatternInfo} (h : L ≤ L')
    (hp : L.pattern? pattern = some info) : L'.pattern? pattern = some info := by
  unfold CompiledGrammar.pattern? at hp ⊢
  rw [← Array.getElem?_toList] at hp ⊢
  exact getElem?_of_prefix h.2.1 hp

theorem scope?_of_le {scope : ScopeId} {info : ScopeInfo} (h : L ≤ L')
    (hs : L.scope? scope = some info) : L'.scope? scope = some info := by
  unfold CompiledGrammar.scope? at hs ⊢
  rw [← Array.getElem?_toList] at hs ⊢
  exact getElem?_of_prefix h.2.2.1 hs

/-! ### Words -/

/-- The item of a definition. -/
def Has (L : Layout) (d : Definition) (id : ItemId) : Prop :=
  (d.place, id) ∈ L.table

/-- The item of a literal text. -/
def IsWord (E : Engine) (L : Layout) (word : String) (ignoreCase crossLine : Bool)
    (id : ItemId) : Prop :=
  E.accepts (Keyword.source ⟨word.toList, ignoreCase⟩) ∧
    L.item? id = some (.text ⟨word.toList, ignoreCase⟩ crossLine)

/-- The item of a regular expression. -/
def IsToken (E : Engine) (L : Layout) (kind : TokenKind) (source : String)
    (ignoreCase crossLine : Bool) (id : ItemId) : Prop :=
  ∃ finder, E.finder? (Compile.anchored source ignoreCase) = some finder ∧
    L.item? id = some (.token kind (Compile.anchored source ignoreCase) finder crossLine)

/-- The item of a built-in token. -/
def IsBuiltin (E : Engine) (L : Layout) (kind : TokenKind) (crossLine : Bool) (id : ItemId) : Prop :=
  L.IsToken E kind (Compile.tokenSource kind) false crossLine id

theorem Has.mono {d : Definition} (h : L ≤ L') (hd : L.Has d id) : L'.Has d id :=
  h.2.2.2.subset hd

theorem IsWord.mono {word : String} {ignoreCase crossLine : Bool} (h : L ≤ L')
    (hw : L.IsWord E word ignoreCase crossLine id) : L'.IsWord E word ignoreCase crossLine id :=
  ⟨hw.1, item?_of_le h hw.2 rfl⟩

theorem IsToken.mono {kind : TokenKind} {source : String} {ignoreCase crossLine : Bool} (h : L ≤ L')
    (ht : L.IsToken E kind source ignoreCase crossLine id) :
    L'.IsToken E kind source ignoreCase crossLine id := by
  obtain ⟨finder, hfinder, hid⟩ := ht
  exact ⟨finder, hfinder, item?_of_le h hid rfl⟩

/-! ### Elements -/

section Elements
variable (E : Engine) (g : Grammar) (L : Layout) (place : Place) (p : PatternDef)

/-- What the name in a reference stands for: a token if it is the name of one, and else the pattern that it
has in the dictionary or in the repository; a name without a meaning stands for an identifier. -/
def IsMeaning (name : String) (id : ItemId) : Prop :=
  match Compile.tokenOfName? name with
  | some kind => L.IsBuiltin E kind p.crossLine id
  | none => match Compile.patternOfName? g place p name with
    | some d => L.Has d id
    | none => L.IsBuiltin E .identifier p.crossLine id

/-- The item of a reference. A single blank stands for blanks in the text. -/
def RendersReference (name : String) (id : ItemId) : Prop :=
  if name = " " then L.item? id = some (.blank p.crossLine)
  else ∃ inner, L.item? id = some (.named name inner) ∧ IsMeaning E g L place p name inner

/-- The item of the elements of a sequence. -/
def Closes : List SequenceElement → ItemId → Prop
  | [], _ => False
  | [⟨item, .one⟩], id => id = item
  | elements, id => L.item? id = some (.sequence elements)

mutual

/-- **The item of an element** of a pattern. -/
def Renders : Element → ItemId → Prop
  | .space, id => L.item? id = some (.blank p.crossLine)
  | .text word, id => L.IsWord E word p.ignoreCase p.crossLine id
  | .reference name, id => RendersReference E g L place p name id
  | .scope name, id => ∃ d, Compile.scopeOfName? g place p name = some d ∧ L.Has d id
  | .regex source, id => L.IsToken E .custom source p.ignoreCase p.crossLine id
  | .optional inner _, id => ∃ elements, RendersAll inner elements ∧ L.Closes elements id

/-- The elements of a sequence, one for each element that counts. -/
def RendersAll : List Element → List SequenceElement → Prop
  | [], elements => elements = []
  | e :: es, elements =>
    if e.counts p then
      ∃ id rest, elements = ⟨id, e.multiplicity⟩ :: rest ∧ Renders e id ∧ RendersAll es rest
    else RendersAll es elements

end

/-- The item of an alternative. -/
def RendersSource (source : String) (id : ItemId) : Prop :=
  ∃ es elements, Pattern.readElements source = .ok es ∧ RendersAll E g L place p es elements ∧
    L.Closes elements id

end Elements

variable {g : Grammar} {place : Place} {p : PatternDef}

theorem IsMeaning.mono {name : String} (h : L ≤ L') (hm : IsMeaning E g L place p name id) :
    IsMeaning E g L' place p name id := by
  unfold IsMeaning at hm ⊢
  split at hm
  · exact hm.mono h
  split at hm
  · exact hm.mono h
  · exact hm.mono h

theorem RendersReference.mono {name : String} (h : L ≤ L')
    (hr : RendersReference E g L place p name id) : RendersReference E g L' place p name id := by
  unfold RendersReference at hr ⊢
  split_ifs at hr ⊢
  · exact item?_of_le h hr rfl
  · obtain ⟨inner, hid, hinner⟩ := hr
    exact ⟨inner, item?_of_le h hid rfl, hinner.mono h⟩

theorem Closes.mono {elements : List SequenceElement} (h : L ≤ L') (hc : L.Closes elements id) :
    L'.Closes elements id := by
  unfold Closes at hc ⊢
  split at hc
  · exact hc
  · exact hc
  · exact item?_of_le h hc rfl

theorem Closes.ne_nil {elements : List SequenceElement} (hc : L.Closes elements id) :
    elements ≠ [] := by
  rintro rfl
  exact hc

mutual

/-- **What an element is translated to stays** when the layout grows. -/
theorem renders_mono (h : L ≤ L') : ∀ {e : Element} {id : ItemId},
    Renders E g L place p e id → Renders E g L' place p e id
  | .space, id, hr => by
    rw [Renders] at hr ⊢
    exact item?_of_le h hr rfl
  | .text word, id, hr => by
    rw [Renders] at hr ⊢
    exact hr.mono h
  | .reference name, id, hr => by
    rw [Renders] at hr ⊢
    exact hr.mono h
  | .scope name, id, hr => by
    rw [Renders] at hr ⊢
    obtain ⟨d, hd, hid⟩ := hr
    exact ⟨d, hd, hid.mono h⟩
  | .regex source, id, hr => by
    rw [Renders] at hr ⊢
    exact hr.mono h
  | .optional inner repeats, id, hr => by
    rw [Renders] at hr ⊢
    obtain ⟨elements, hinner, hid⟩ := hr
    exact ⟨elements, rendersAll_mono h hinner, hid.mono h⟩

theorem rendersAll_mono (h : L ≤ L') : ∀ {es : List Element} {elements : List SequenceElement},
    RendersAll E g L place p es elements → RendersAll E g L' place p es elements
  | [], elements, hr => by
    rw [RendersAll] at hr ⊢
    exact hr
  | e :: es, elements, hr => by
    rw [RendersAll] at hr ⊢
    split_ifs at hr ⊢ with hcounts
    · obtain ⟨id, rest, rfl, he, hrest⟩ := hr
      exact ⟨id, rest, rfl, renders_mono h he, rendersAll_mono h hrest⟩
    · exact rendersAll_mono h hr

end

theorem RendersSource.mono {source : String} (h : L ≤ L')
    (hr : RendersSource E g L place p source id) : RendersSource E g L' place p source id := by
  obtain ⟨es, elements, hes, hall, hid⟩ := hr
  exact ⟨es, elements, hes, rendersAll_mono h hall, hid.mono h⟩

/-! ### Definitions -/

/-- **The item of a definition**: an alternation with one alternative for each source, or a scope with its
delimiters and one item for each pattern of its body. -/
def Compiles (E : Engine) (g : Grammar) (L : Layout) : Definition → ItemId → Prop
  | .pattern place p, id => p.sources ≠ [] ∧ ∃ pattern alternatives,
      L.item? id = some (.alternation pattern alternatives) ∧
      L.pattern? pattern = some ⟨p.name, p.id, p.collector, p.provider⟩ ∧
      List.Forall₂ (RendersSource E g L place p) p.sources alternatives
  | .scope place s, id => (s.opening ≠ "" ∧ s.closing ≠ "") ∧ ∃ scope opening closing body,
      L.item? id = some (.scope scope opening closing body) ∧
      L.scope? scope = some ⟨s.name, s.collector, s.provider⟩ ∧
      L.IsWord E s.opening false true opening ∧ L.IsWord E s.closing false true closing ∧
      List.Forall₂ L.Has (placed .body place s.patterns) body

/-- The item of a definition stays its item when the layout grows and the item itself does not change. -/
theorem Compiles.mono {d : Definition} (h : L ≤ L') (hid : L'.item? id = L.item? id)
    (hd : Compiles E g L d id) : Compiles E g L' d id := by
  cases d with
  | pattern place p =>
    obtain ⟨hsources, pattern, alternatives, hitem, hpattern, hall⟩ := hd
    exact ⟨hsources, pattern, alternatives, hid.trans hitem, pattern?_of_le h hpattern,
      hall.imp fun _ _ hr => hr.mono h⟩
  | scope place s =>
    obtain ⟨hdelimiters, scope, opening, closing, body, hitem, hscope, hopening, hclosing, hall⟩ := hd
    exact ⟨hdelimiters, scope, opening, closing, body, hid.trans hitem, scope?_of_le h hscope,
      hopening.mono h, hclosing.mono h, hall.imp fun _ _ hd => hd.mono h⟩

/-- **Where an item comes from.** -/
inductive Stems (E : Engine) (g : Grammar) (L : Layout) : ItemId → Prop
  | root : Stems E g L CompiledGrammar.root
  | definition {d : Definition} {id : ItemId} : Reached g d → L.Has d id → Stems E g L id
  | delimiter {place : Place} {s : ScopeDef} {scope : ScopeId} {id opening closing id' : ItemId}
      {body : List ItemId} : Reached g (.scope place s) → L.Has (.scope place s) id →
      L.item? id = some (.scope scope opening closing body) → id' ∈ [opening, closing] →
      Stems E g L id'
  | element {place : Place} {p : PatternDef} {e : Element} {id : ItemId} :
      Reached g (.pattern place p) → e ∈ p.parts → Renders E g L place p e id → Stems E g L id
  | source {place : Place} {p : PatternDef} {source : String} {id : ItemId} :
      Reached g (.pattern place p) → source ∈ p.sources → RendersSource E g L place p source id →
      Stems E g L id
  | builtin {place : Place} {p : PatternDef} {kind : TokenKind} {id : ItemId} :
      Reached g (.pattern place p) → L.IsBuiltin E kind p.crossLine id → Stems E g L id

theorem Stems.mono (h : L ≤ L') (ho : Stems E g L id) : Stems E g L' id := by
  cases ho with
  | root => exact .root
  | definition hd hid => exact .definition hd (hid.mono h)
  | delimiter hs hid hitem hend =>
    obtain ⟨item', hitem', hframe⟩ := item?_frame_of_le h hitem
    cases item' <;> simp only [Item.frame, reduceCtorEq, Item.scope.injEq] at hframe
    obtain ⟨rfl, rfl, rfl, -⟩ := hframe
    exact .delimiter hs (hid.mono h) hitem' hend
  | element hp he hr => exact .element hp he (renders_mono h hr)
  | source hp hs hr => exact .source hp hs (hr.mono h)
  | builtin hp ht => exact .builtin hp (ht.mono h)

end Layout

end ShaderAssist

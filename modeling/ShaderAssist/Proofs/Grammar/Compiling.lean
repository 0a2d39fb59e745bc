import Mathlib.Data.List.Perm.Subperm
import ShaderAssist.Proofs.Grammar.Building

/-!
# What compiling builds

The elements, definitions and patterns of a grammar are compiled to their translations, or there is a fault
in a reached definition (`Compile.builds_element`, `Compile.builds_definition`, `Compile.runs_document`).
Definitions are never nested deeper than there are definitions: each level remembers one more of them
(`Compile.Ready.room`).
-/

namespace ShaderAssist

namespace Compile

open Layout

variable {E : Engine} {g : Grammar} {n : Nat} {opened : List ItemId} {b : GrammarBuild}

/-! ### Elements -/

section Define
variable {define : Definition → CompileM ItemId}
  (hdefine : ∀ opened d b, Reached g d → Ready E g n opened b →
    Builds E g n opened b (define d) fun id L => L.Has d id)
  {place : Place} {p : PatternDef} (hp : Reached g (.pattern place p))
include hdefine hp

theorem builds_reference {name : String} (hname : .reference name ∈ p.parts)
    (hb : Ready E g n opened b) :
    Builds E g n opened b (reference E g define place p name) fun id L =>
      RendersReference E g L place p name id := by
  -- an item that is the translation of the reference also comes from it
  have horigin : ∀ {L : Layout} {id : ItemId}, RendersReference E g L place p name id →
      Stems E g L id ∧ RendersReference E g L place p name id := by
    intro L id h
    refine ⟨.element hp hname ?_, h⟩
    rw [Renders]
    exact h
  unfold reference
  by_cases hblank : name = " "
  · rw [if_pos hblank]
    refine builds_push hb rfl (fun r hr => by cases hr) fun L _ hid => horigin ?_
    rw [RendersReference, if_pos hblank]
    exact hid
  rw [if_neg hblank]
  have hnamed : ∀ {inner : ItemId} {b' : GrammarBuild}, Ready E g n opened b' →
      (b'.layout g).IsInner inner → (∀ L, b'.layout g ≤ L → IsMeaning E g L place p name inner) →
      Builds E g n opened b' (push (.named name inner)) fun id L =>
        RendersReference E g L place p name id := by
    intro inner b' hb' hlt hmeans
    refine builds_push hb' rfl ?_ fun L hle hid => horigin ?_
    · exact List.forall_mem_singleton.mpr hlt
    · rw [RendersReference, if_neg hblank]
      exact ⟨inner, hid, hmeans L hle⟩
  cases htoken : tokenOfName? name with
  | some kind =>
    refine (builds_token kind hp hb).bind fun inner b' hb' _ ht => ?_
    refine hnamed hb' ht.isInner fun L hle => ?_
    rw [IsMeaning, htoken]
    exact ht.mono hle
  | none =>
    cases hpattern : patternOfName? g place p name with
    | some d =>
      have hd : Reached g d := by
        refine .step hp (.element hname ?_)
        simp only [Element.target?, if_neg hblank, htoken, hpattern]
      refine (hdefine opened d b hd hb).bind fun inner b' hb' _ hid => ?_
      refine hnamed hb' (hb'.numbered.isInner_of_has hid) fun L hle => ?_
      simp only [IsMeaning, htoken, hpattern]
      exact hid.mono hle
    | none =>
      refine (builds_token .identifier hp hb).bind fun inner b' hb' _ ht => ?_
      refine hnamed hb' ht.isInner fun L hle => ?_
      simp only [IsMeaning, htoken, hpattern]
      exact ht.mono hle

omit hdefine hp in
theorem builds_closeSequence {elements : List SequenceElement} (hb : Ready E g n opened b)
    (hnil : elements = [] → Excused E g (.emptySequence p.name))
    (hrefs : ∀ e ∈ elements, (b.layout g).IsInner e.item)
    (horigin : ∀ L id, b.layout g ≤ L → L.Closes elements id → Stems E g L id) :
    Builds E g n opened b (closeSequence p elements) fun id L => L.Closes elements id := by
  unfold closeSequence
  split
  · exact .throw (hnil rfl)
  · exact .pure hb rfl
  · rename_i hne hone
    refine builds_push hb rfl ?_ fun L hle hid => ?_
    · intro r hr
      obtain ⟨e, he, rfl⟩ := List.mem_map.mp hr
      exact hrefs e he
    · have hcloses : L.Closes elements ⟨b.items.size⟩ := by
        unfold Closes
        split
        · exact hne rfl
        · exact (hone _ rfl).elim
        · exact hid
      exact ⟨horigin L _ hle hcloses, hcloses⟩

omit hdefine hp in
theorem builds_single {x : CompileM ItemId} {e : Element} (hcounts : e.counts p)
    (hx : Builds E g n opened b x fun id L => Renders E g L place p e id) :
    Builds E g n opened b (x >>= fun id => pure [⟨id, e.multiplicity⟩]) fun elements L =>
      RendersOne E g L place p e elements := by
  refine hx.bind fun id b' hb' _ hid => .pure hb' ?_
  unfold RendersOne
  rw [if_pos hcounts]
  exact ⟨id, rfl, hid⟩

set_option linter.unusedSectionVars false in
mutual

/-- **Compiling an element** of a reached pattern. -/
theorem builds_element : ∀ (e : Element) {b : GrammarBuild}, (∀ e' ∈ e.parts, e' ∈ p.parts) →
    Ready E g n opened b → Builds E g n opened b (element E g define place p e) fun elements L =>
      RendersOne E g L place p e elements
  | .space, b, he, hb => by
    rw [element]
    split
    · rename_i hkeep
      refine builds_single (e := .space) (by simp [Element.counts, hkeep]) ?_
      refine builds_push hb rfl (fun r hr => by cases hr) fun L _ hid => ?_
      have hrenders : Renders E g L place p .space ⟨b.items.size⟩ := by rw [Renders]; exact hid
      exact ⟨.element hp (he _ (Element.mem_parts _)) hrenders, hrenders⟩
    · rename_i hkeep
      refine .pure hb ?_
      unfold RendersOne
      rw [if_neg (by simp [Element.counts, Element.isSpace, hkeep])]
  | .text word, b, he, hb => by
    have hword := he _ (Element.mem_parts _)
    rw [element]
    refine builds_single (e := .text word) (by simp [Element.counts, Element.isSpace]) ?_
    by_cases haccepted : E.accepts (Keyword.source ⟨word.toList, p.ignoreCase⟩)
    · rw [pushText_of_accepts _ haccepted]
      refine builds_push hb rfl (fun r hr => by cases hr) fun L _ hid => ?_
      have hrenders : Renders E g L place p (.text word) ⟨b.items.size⟩ := by
        rw [Renders]
        exact ⟨haccepted, hid⟩
      exact ⟨.element hp hword hrenders, hrenders⟩
    · rw [pushText_of_not_accepts _ haccepted]
      exact .throw ⟨_, hp, .unusableText hword haccepted⟩
  | .reference name, b, he, hb => by
    rw [element]
    refine builds_single (e := .reference name) (by simp [Element.counts, Element.isSpace]) ?_
    refine (builds_reference hdefine hp (he _ (Element.mem_parts _)) hb).imp fun id L _ hr => ?_
    rw [Renders]
    exact hr
  | .scope name, b, he, hb => by
    have hname := he _ (Element.mem_parts _)
    rw [element]
    cases hscope : scopeOfName? g place p name with
    | none => exact .throw ⟨_, hp, .undefinedScope hname hscope⟩
    | some d =>
      refine builds_single (e := .scope name) (by simp [Element.counts, Element.isSpace]) ?_
      have hd : Reached g d := .step hp (.element hname hscope)
      refine (hdefine opened d b hd hb).imp fun id L _ hid => ?_
      rw [Renders]
      exact ⟨d, hscope, hid⟩
  | .regex source, b, he, hb => by
    have hsource := he _ (Element.mem_parts _)
    have hrenders : ∀ {L : Layout} {id : ItemId},
        L.IsToken E .custom source p.ignoreCase p.crossLine id →
          Renders E g L place p (.regex source) id := by
      intro L id h
      rw [Renders]
      exact h
    rw [element]
    refine builds_single (e := .regex source) (by simp [Element.counts, Element.isSpace]) ?_
    refine (builds_pushToken .custom p.crossLine hb
      (fun h => ⟨_, hp, .invalidRegex hsource h⟩) ?_).imp fun id L _ h => hrenders h
    exact fun L id _ h => .element hp hsource (hrenders h)
  | .optional inner repeats, b, he, hb => by
    have hoptional := he _ (Element.mem_parts _)
    rw [element]
    refine (builds_elements inner (fun e' h => he e' ?_) hb).bind fun elements b' hb' _ hall => ?_
    · rw [Element.parts]
      exact List.mem_cons_of_mem _ h
    have hrenders : ∀ {L : Layout} {id : ItemId}, b'.layout g ≤ L → L.Closes elements id →
        Renders E g L place p (.optional inner repeats) id := by
      intro L id hle h
      rw [Renders]
      exact ⟨elements, rendersAll_mono hle hall, h⟩
    refine builds_single (e := .optional inner repeats) (by simp [Element.counts, Element.isSpace]) ?_
    refine (builds_closeSequence hb' (fun hnil => ?_) (isInner_of_rendersAll hb'.numbered hall)
      fun L id hle h => .element hp hoptional (hrenders hle h)).imp fun id L hle h => hrenders hle h
    refine ⟨_, hp, .emptyOptional hoptional fun hcounts => ?_⟩
    exact (rendersAll_ne_nil_iff hall).mpr hcounts hnil

theorem builds_elements : ∀ (es : List Element) {b : GrammarBuild},
    (∀ e' ∈ partsOf es, e' ∈ p.parts) → Ready E g n opened b →
    Builds E g n opened b (elements E g define place p es) fun elements L =>
      RendersAll E g L place p es elements
  | [], b, _, hb => by
    rw [elements]
    refine .pure hb ?_
    rw [RendersAll]
  | e :: es, b, he, hb => by
    rw [elements]
    have hparts : ∀ e', e' ∈ e.parts ∨ e' ∈ partsOf es → e' ∈ p.parts := by
      intro e' h
      refine he e' ?_
      rw [partsOf]
      exact List.mem_append.mpr h
    refine (builds_element e (fun e' h => hparts e' (Or.inl h)) hb).bind fun first b₁ hb₁ _ h₁ => ?_
    refine (builds_elements es (fun e' h => hparts e' (Or.inr h)) hb₁).bind
      fun rest b₂ hb₂ hle h₂ => ?_
    exact .pure hb₂ (rendersAll_cons (h₁.mono hle) h₂)

end

theorem builds_alternative {source : String} (hs : source ∈ p.sources) (hb : Ready E g n opened b) :
    Builds E g n opened b (alternative E g define place p source) fun id L =>
      RendersSource E g L place p source id := by
  unfold alternative
  cases hes : Pattern.readElements source with
  | error e => exact .throw ⟨_, hp, .malformed hs hes⟩
  | ok es =>
    have hparts : ∀ e ∈ partsOf es, e ∈ p.parts := fun e he =>
      PatternDef.mem_parts.mpr ⟨source, hs, es, hes, he⟩
    refine (builds_elements hdefine hp es hparts hb).bind fun elements b' hb' _ hall => ?_
    have hrenders : ∀ {L : Layout} {id : ItemId}, b'.layout g ≤ L → L.Closes elements id →
        RendersSource E g L place p source id := fun hle h =>
      ⟨es, elements, hes, rendersAll_mono hle hall, h⟩
    refine (builds_closeSequence hb' (fun hnil => ?_) (isInner_of_rendersAll hb'.numbered hall)
      fun L id hle h => .source hp hs (hrenders hle h)).imp fun id L hle h => hrenders hle h
    refine ⟨_, hp, .emptySource hs hes fun hcounts => ?_⟩
    exact (rendersAll_ne_nil_iff hall).mpr hcounts hnil

/-! ### Definitions -/

omit hdefine hp in
/-- **A definition is closed**: its open item gets the body that makes it the translation. -/
theorem Ready.fill {d : Definition} {id : ItemId} {item old : Item}
    (hb : Ready E g n (id :: opened) b) (hd : Reached g d) (hhas : (b.layout g).Has d id)
    (hold : (b.layout g).item? id = some old) (hframe : item.frame = old.frame)
    (hrefs : ∀ r ∈ item.references, (b.layout g).IsInner r)
    (hcompiles : Compiles E g ((b.layout g).fill id item) d id) :
    Ready E g (n + 1) opened (b.withBody id item) := by
  refine ⟨hb.toConsistent.fill hold hframe hrefs fun d' hd' hhas' => ?_, ?_⟩
  · -- an item belongs to one place only, and a place to one definition
    have heq : (d'.place, id) = (d.place, id) :=
      List.inj_on_of_nodup_map hb.numbered.ids hhas' hhas rfl
    rw [hd'.eq_of_place hd (Prod.mk.inj heq).1]
    exact hcompiles
  · have hlength : (b.withBody id item).compiled.length = b.compiled.length := rfl
    have := hb.room
    omega

omit hdefine in
/-- The tables after the last alternative of a pattern. -/
theorem ready_closePattern {b' : GrammarBuild} {alternatives : List ItemId}
    (hb' : Ready E g n (⟨b.items.size⟩ :: opened) b')
    (hle : (openPattern place p b).layout g ≤ b'.layout g) (hsources : p.sources ≠ [])
    (hall : List.Forall₂ (RendersSource E g (b'.layout g) place p) p.sources alternatives) :
    Ready E g (n + 1) opened
        (b'.withBody ⟨b.items.size⟩ (.alternation ⟨b.patterns.size⟩ alternatives)) ∧
      b'.layout g ≤ (b'.layout g).fill ⟨b.items.size⟩ (.alternation ⟨b.patterns.size⟩ alternatives) := by
  have hitem : ((openPattern place p b).layout g).item? ⟨b.items.size⟩ =
      some (.alternation ⟨b.patterns.size⟩ []) := item?_push_self (L := b.layout g) rfl
  have hinfo : ((openPattern place p b).layout g).pattern? ⟨b.patterns.size⟩ =
      some ⟨p.name, p.id, p.collector, p.provider⟩ := Array.getElem?_push_size
  have hhas : ((openPattern place p b).layout g).Has (.pattern place p) ⟨b.items.size⟩ :=
    List.mem_cons_self ..
  obtain ⟨old, hold, hframe⟩ := item?_frame_of_le hle hitem
  have hfill : b'.layout g ≤ (b'.layout g).fill ⟨b.items.size⟩
      (.alternation ⟨b.patterns.size⟩ alternatives) := le_fill hold hframe.symm
  refine ⟨hb'.fill hp (hhas.mono hle) hold hframe.symm ?_ ?_, hfill⟩
  · intro r hr
    obtain ⟨source, -, hr⟩ := exists_of_forall₂ hall r hr
    exact hr.isInner hb'.numbered
  · refine ⟨hsources, _, alternatives, ?_, pattern?_of_le (hle.trans hfill) hinfo,
      hall.imp fun _ _ h => h.mono hfill⟩
    rw [item?_fill (CompiledGrammar.lt_size_of_item? hold), if_pos rfl]

theorem builds_freshPattern (hnew : place ∉ b.compiled.map Prod.fst)
    (hb : Ready E g (n + 1) opened b) :
    Builds E g (n + 1) opened b (freshPattern E g define place p) fun id L =>
      L.Has (.pattern place p) id := by
  unfold freshPattern
  dsimp only
  split
  case isTrue h =>
    have hexcused : Excused E g (.noAlternative p.name) :=
      ⟨_, hp, .noAlternative (List.isEmpty_iff.mp h)⟩
    exact hexcused
  case isFalse h =>
  have hsources : p.sources ≠ [] := fun hnil => h (List.isEmpty_iff.mpr hnil)
  -- the pattern is open while its alternatives are compiled
  have hopen : Ready E g n (⟨b.items.size⟩ :: opened) (openPattern place p b) := by
    refine ⟨consistent_openPattern hb.toConsistent hp hnew, ?_⟩
    have hlength : (openPattern place p b).compiled.length = b.compiled.length + 1 := rfl
    have := hb.room
    omega
  have hsteps := builds_mapM (R := fun source id L => RendersSource E g L place p source id)
    (fun _ _ _ _ hle h => h.mono hle) p.sources
    (fun source hs b hb => builds_alternative hdefine hp hs hb) hopen
  change Runs (p.sources.mapM (alternative E g define place p) >>= fun alternatives =>
    replace ⟨b.items.size⟩ (.alternation ⟨b.patterns.size⟩ alternatives) >>= fun _ =>
      (pure ⟨b.items.size⟩ : CompileM ItemId)) (openPattern place p b) _ _
  refine Runs.bind (hsteps.mono fun alternatives b' ⟨hb', hle, hall⟩ => ?_)
  obtain ⟨hready, hfill⟩ := ready_closePattern hp hb' hle hsources hall
  exact ⟨hready, (le_openPattern g place p b).trans (hle.trans hfill),
    hle.2.2.2.subset (List.mem_cons_self ..)⟩

omit hdefine hp in
/-- The tables after the last pattern in the body of a scope. -/
theorem ready_closeScope {s : ScopeDef} {b' : GrammarBuild} {body : List ItemId}
    (hs : Reached g (.scope place s)) (hb' : Ready E g n (⟨b.items.size + 2⟩ :: opened) b')
    (hle : (openScope place s b).layout g ≤ b'.layout g)
    (hdelimiters : s.opening ≠ "" ∧ s.closing ≠ "")
    (haccepted : ∀ word ∈ [s.opening, s.closing], E.accepts (Keyword.source ⟨word.toList, false⟩))
    (hall : List.Forall₂ (b'.layout g).Has (placed .body place s.patterns) body) :
    Ready E g (n + 1) opened (b'.withBody ⟨b.items.size + 2⟩
        (.scope ⟨b.scopes.size⟩ ⟨b.items.size⟩ ⟨b.items.size + 1⟩ body)) ∧
      b'.layout g ≤ (b'.layout g).fill ⟨b.items.size + 2⟩
        (.scope ⟨b.scopes.size⟩ ⟨b.items.size⟩ ⟨b.items.size + 1⟩ body) := by
  obtain ⟨hopening, hclosing⟩ := item?_withDelimiters g s b
  have hle' := (withDelimiters_le g place s b).trans hle
  have hopening' : (b'.layout g).IsWord E s.opening false true ⟨b.items.size⟩ :=
    ⟨haccepted _ (by simp), item?_of_le hle' hopening rfl⟩
  have hclosing' : (b'.layout g).IsWord E s.closing false true ⟨b.items.size + 1⟩ :=
    ⟨haccepted _ (by simp), item?_of_le hle' hclosing rfl⟩
  have hitem := item?_openScope g place s b
  have hinfo : ((openScope place s b).layout g).scope? ⟨b.scopes.size⟩ =
      some ⟨s.name, s.collector, s.provider⟩ := Array.getElem?_push_size
  have hhas : ((openScope place s b).layout g).Has (.scope place s) ⟨b.items.size + 2⟩ :=
    List.mem_cons_self ..
  obtain ⟨old, hold, hframe⟩ := item?_frame_of_le hle hitem
  have hfill : b'.layout g ≤ (b'.layout g).fill ⟨b.items.size + 2⟩
      (.scope ⟨b.scopes.size⟩ ⟨b.items.size⟩ ⟨b.items.size + 1⟩ body) := le_fill hold hframe.symm
  refine ⟨hb'.fill hs (hhas.mono hle) hold hframe.symm ?_ ?_, hfill⟩
  · refine List.forall_mem_cons.mpr ⟨hopening'.isInner,
      List.forall_mem_cons.mpr ⟨hclosing'.isInner, fun r hr => ?_⟩⟩
    obtain ⟨d, -, hr⟩ := exists_of_forall₂ hall r hr
    exact hb'.numbered.isInner_of_has hr
  · refine ⟨hdelimiters, _, _, _, body, ?_, scope?_of_le (hle.trans hfill) hinfo,
      hopening'.mono hfill, hclosing'.mono hfill, hall.imp fun _ _ h => h.mono hfill⟩
    rw [item?_fill (CompiledGrammar.lt_size_of_item? hold), if_pos rfl]

omit hp in
theorem builds_freshScope {s : ScopeDef} (hs : Reached g (.scope place s))
    (hnew : place ∉ b.compiled.map Prod.fst) (hb : Ready E g (n + 1) opened b) :
    Builds E g (n + 1) opened b (freshScope E define place s) fun id L => L.Has (.scope place s) id := by
  unfold freshScope
  dsimp only
  split
  case isTrue h =>
    have hexcused : Excused E g (.emptyDelimiter s.name) := by
      refine ⟨_, hs, .emptyDelimiter ?_⟩
      simpa using h
    exact hexcused
  case isFalse h =>
  have hdelimiters : s.opening ≠ "" ∧ s.closing ≠ "" := by simpa using h
  have hunusable : ∀ {word}, word ∈ [s.opening, s.closing] →
      ¬ E.accepts (Keyword.source ⟨word.toList, false⟩) → Excused E g .invalidRegex := fun hmem h =>
    ⟨_, hs, .unusableDelimiter hmem h⟩
  by_cases hopening : E.accepts (Keyword.source ⟨s.opening.toList, false⟩)
  case neg =>
    rw [pushText_of_not_accepts _ hopening]
    exact hunusable (by simp) hopening
  by_cases hclosing : E.accepts (Keyword.source ⟨s.closing.toList, false⟩)
  case neg =>
    simp only [pushText_of_accepts _ hopening, pushText_of_not_accepts _ hclosing]
    exact hunusable (by simp) hclosing
  simp only [pushText_of_accepts _ hopening, pushText_of_accepts _ hclosing]
  have hopen : Ready E g n (⟨b.items.size + 2⟩ :: opened) (openScope place s b) := by
    refine ⟨consistent_openScope hb.toConsistent hs hnew, ?_⟩
    have hlength : (openScope place s b).compiled.length = b.compiled.length + 1 := rfl
    have := hb.room
    omega
  have hsteps := builds_mapM (R := fun d id L => L.Has d id) (fun _ _ _ _ hle h => h.mono hle)
    (placed .body place s.patterns)
    (fun d hd b hb => hdefine _ d b (.step hs (.body hd)) hb) hopen
  change Runs ((placed .body place s.patterns).mapM define >>= fun body =>
    replace ⟨(withDelimiters s b).items.size⟩
        (.scope ⟨b.scopes.size⟩ ⟨b.items.size⟩ ⟨(b.withItem _).items.size⟩ body) >>= fun _ =>
      (pure ⟨(withDelimiters s b).items.size⟩ : CompileM ItemId))
    { (withDelimiters s b).withItem
        (.scope ⟨b.scopes.size⟩ ⟨b.items.size⟩ ⟨(b.withItem _).items.size⟩ []) with
      scopes := b.scopes.push ⟨s.name, s.collector, s.provider⟩
      compiled := (place, ⟨(withDelimiters s b).items.size⟩) :: b.compiled } _ _
  rw [size_withDelimiters, GrammarBuild.size_withItem]
  refine Runs.bind (hsteps.mono fun body b' ⟨hb', hle, hall⟩ => ?_)
  obtain ⟨hready, hfill⟩ := ready_closeScope hs hb' hle hdelimiters (by simp [hopening, hclosing]) hall
  exact ⟨hready, (le_openScope g place s b).trans (hle.trans hfill),
    hle.2.2.2.subset (List.mem_cons_self ..)⟩

end Define

/-- A reached definition that was not met before leaves room for itself. -/
theorem Consistent.length_lt {d : Definition} (hb : Consistent E g opened b) (hd : Reached g d)
    (hnew : d.place ∉ b.compiled.map Prod.fst) : b.compiled.length < g.count := by
  have hnodup : (d.place :: b.compiled.map Prod.fst).Nodup :=
    List.nodup_cons.mpr ⟨hnew, hb.numbered.places⟩
  have hsub : d.place :: b.compiled.map Prod.fst ⊆ g.places := by
    refine List.cons_subset.mpr ⟨hd.place_mem, fun place hplace => ?_⟩
    obtain ⟨e, he, rfl⟩ := List.mem_map.mp hplace
    obtain ⟨d', hd', heq⟩ := hb.reached e he
    exact heq ▸ hd'.place_mem
  have hle := (List.subperm_of_subset hnodup hsub).length_le
  rw [List.length_cons, List.length_map, g.length_places] at hle
  exact hle

theorem builds_remembered {d : Definition} {fresh : CompileM ItemId} (hb : Ready E g n opened b)
    (hfresh : d.place ∉ b.compiled.map Prod.fst →
      Builds E g n opened b fresh fun id L => L.Has d id) :
    Builds E g n opened b (remembered d.place fresh) fun id L => L.Has d id := by
  unfold remembered
  refine .get ?_
  cases hlookup : b.compiled.lookup d.place with
  | some id => exact .pure hb (mem_of_lookup hlookup)
  | none =>
    refine hfresh fun hmem => ?_
    obtain ⟨e, he, heq⟩ := List.mem_map.mp hmem
    have := List.lookup_eq_none_iff.mp hlookup e he
    simp [heq] at this

/-- **Compiling a definition.** -/
theorem builds_definition (E : Engine) (g : Grammar) : ∀ (n : Nat) (opened : List ItemId) (d : Definition)
    (b : GrammarBuild), Reached g d → Ready E g n opened b →
    Builds E g n opened b (definition E g n d) fun id L => L.Has d id
  | 0, opened, d, b, hd, hb => by
    unfold definition
    refine builds_remembered hb fun hnew => ?_
    -- all definitions are known, so there is no new one
    have hlt := hb.length_lt hd hnew
    have hroom := hb.room
    omega
  | n + 1, opened, .pattern place p, b, hd, hb =>
    builds_remembered hb fun hnew => builds_freshPattern (builds_definition E g n) hd hnew hb
  | n + 1, opened, .scope place s, b, hd, hb =>
    builds_remembered hb fun hnew => builds_freshScope (builds_definition E g n) hd hnew hb

/-- The tables of a whole grammar. -/
structure Complete (E : Engine) (g : Grammar) (b : GrammarBuild) : Prop extends Consistent E g [] b where
  body : ∃ body, (b.layout g).item? CompiledGrammar.root = some (.grammar body) ∧
    List.Forall₂ (b.layout g).Has (placed .root [] g.patterns) body

/-- **Compiling the patterns of a document.** -/
theorem runs_document (E : Engine) (g : Grammar) : Runs (document E g) {} (fun _ b => Complete E g b) fun e =>
    (e = .noPattern ∧ g.patterns = []) ∨ Excused E g e := by
  unfold document
  dsimp only
  split
  case isTrue h => exact Or.inl ⟨rfl, List.isEmpty_iff.mp h⟩
  case isFalse h =>
  have hready : Ready E g g.count [CompiledGrammar.root] { items := #[.grammar []] } :=
    ⟨consistent_root E g, Nat.le_add_left _ _⟩
  have hsteps := builds_mapM (R := fun d id L => L.Has d id) (fun _ _ _ _ hle h => h.mono hle)
    (placed .root [] g.patterns)
    (fun d hd b hb => builds_definition E g g.count _ d b (.root hd) hb) hready
  change Runs ((placed .root [] g.patterns).mapM (definition E g g.count) >>= fun body =>
    replace CompiledGrammar.root (.grammar body)) { items := #[.grammar []] } _ _
  refine Runs.bind (Runs.imp hsteps (fun body b ⟨hb, hle, hall⟩ => ?_) fun e he => Or.inr he)
  have hroot : (GrammarBuild.layout g { items := #[.grammar []] }).item? CompiledGrammar.root =
      some (.grammar []) := rfl
  obtain ⟨old, hold, hframe⟩ := item?_frame_of_le hle hroot
  have hfill : b.layout g ≤ (b.layout g).fill CompiledGrammar.root (.grammar body) :=
    le_fill hold hframe.symm
  refine ⟨hb.toConsistent.fill hold hframe.symm (fun r hr => ?_) fun d hd hhas => ?_, body, ?_,
    hall.imp fun _ _ h => h.mono hfill⟩
  · obtain ⟨d, -, hr⟩ := exists_of_forall₂ hall r hr
    exact hb.numbered.isInner_of_has hr
  · -- the whole document is no definition
    obtain ⟨item, hitem, hdefinition⟩ := (hb.numbered.defined _).mp (List.mem_map_of_mem hhas)
    obtain rfl : old = item := Option.some.inj (hold.symm.trans hitem)
    rw [← Item.isDefinition_frame, hframe] at hdefinition
    cases hdefinition
  · exact (item?_fill (CompiledGrammar.lt_size_of_item? hold) _ _).trans (if_pos rfl)

end Compile

end ShaderAssist

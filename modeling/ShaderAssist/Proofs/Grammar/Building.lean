import Mathlib.Data.List.Nodup
import ShaderAssist.Proofs.Grammar.Consistency

/-!
# Steps of compiling

A step of compiling is described by one statement (`Compile.Builds`): from tables in order it leads to tables
in order that have grown, with a result as described, or it fails for a fault of a reached definition
(`Fault`). This module has the statement, how it is chained, and the steps that append a single item.
-/

namespace ShaderAssist

/-! ### Faults -/

/-- Some element of a sequence counts. -/
def PatternDef.Counts (p : PatternDef) (es : List Element) : Prop :=
  ∃ e ∈ es, e.counts p

/-- **What can be wrong with a definition**, and the error that says so. -/
inductive Fault (E : Engine) (g : Grammar) : Definition → GrammarError → Prop
  | noAlternative {place : Place} {p : PatternDef} : p.sources = [] →
      Fault E g (.pattern place p) (.noAlternative p.name)
  | malformed {place : Place} {p : PatternDef} {source : String} {error : PatternError} :
      source ∈ p.sources → Pattern.readElements source = .error error →
      Fault E g (.pattern place p) (.malformed error source)
  | emptySource {place : Place} {p : PatternDef} {source : String} {es : List Element} :
      source ∈ p.sources → Pattern.readElements source = .ok es → ¬ p.Counts es →
      Fault E g (.pattern place p) (.emptySequence p.name)
  | emptyOptional {place : Place} {p : PatternDef} {inner : List Element} {repeats : Bool} :
      .optional inner repeats ∈ p.parts → ¬ p.Counts inner →
      Fault E g (.pattern place p) (.emptySequence p.name)
  | undefinedScope {place : Place} {p : PatternDef} {name : String} :
      .scope name ∈ p.parts → Compile.scopeOfName? g place p name = none →
      Fault E g (.pattern place p) (.undefinedScope name)
  | invalidRegex {place : Place} {p : PatternDef} {source : String} :
      .regex source ∈ p.parts → ¬ E.accepts (Compile.anchored source p.ignoreCase) →
      Fault E g (.pattern place p) .invalidRegex
  | unusableText {place : Place} {p : PatternDef} {word : String} :
      .text word ∈ p.parts → ¬ E.accepts (Keyword.source ⟨word.toList, p.ignoreCase⟩) →
      Fault E g (.pattern place p) .invalidRegex
  | emptyDelimiter {place : Place} {s : ScopeDef} : s.opening = "" ∨ s.closing = "" →
      Fault E g (.scope place s) (.emptyDelimiter s.name)
  | unusableDelimiter {place : Place} {s : ScopeDef} {word : String} :
      word ∈ [s.opening, s.closing] → ¬ E.accepts (Keyword.source ⟨word.toList, false⟩) →
      Fault E g (.scope place s) .invalidRegex

/-- An error that is the fault of a reached definition. -/
def Excused (E : Engine) (g : Grammar) (e : GrammarError) : Prop :=
  ∃ d, Reached g d ∧ Fault E g d e

namespace Layout

variable {E : Engine} {g : Grammar} {L : Layout} {place : Place} {p : PatternDef}

/-! ### Items of translated elements -/

theorem IsWord.isInner {word : String} {ignoreCase crossLine : Bool} {id : ItemId}
    (h : L.IsWord E word ignoreCase crossLine id) : L.IsInner id :=
  isInner_of_isPlain h.2 rfl

theorem IsToken.isInner {kind : TokenKind} {source : String} {ignoreCase crossLine : Bool}
    {id : ItemId} (h : L.IsToken E kind source ignoreCase crossLine id) :
    L.IsInner id := by
  obtain ⟨finder, -, hid⟩ := h
  exact isInner_of_isPlain hid rfl

theorem Closes.isInner {elements : List SequenceElement} {id : ItemId} (h : L.Closes elements id)
    (hall : ∀ e ∈ elements, L.IsInner e.item) : L.IsInner id := by
  unfold Closes at h
  split at h
  · exact h.elim
  · rw [h]
    exact hall _ (List.mem_singleton.mpr rfl)
  · exact isInner_of_isPlain h rfl

mutual

theorem isInner_of_renders (hn : L.Numbered) : ∀ {e : Element} {id : ItemId},
    Renders E g L place p e id → L.IsInner id
  | .space, id, h => by
    rw [Renders] at h
    exact isInner_of_isPlain h rfl
  | .text word, id, h => by
    rw [Renders] at h
    exact h.isInner
  | .reference name, id, h => by
    rw [Renders, RendersReference] at h
    split_ifs at h
    · exact isInner_of_isPlain h rfl
    · obtain ⟨inner, hid, -⟩ := h
      exact isInner_of_isPlain hid rfl
  | .scope name, id, h => by
    rw [Renders] at h
    obtain ⟨d, -, hid⟩ := h
    exact hn.isInner_of_has hid
  | .regex source, id, h => by
    rw [Renders] at h
    exact h.isInner
  | .optional inner repeats, id, h => by
    rw [Renders] at h
    obtain ⟨elements, hinner, hid⟩ := h
    exact hid.isInner (isInner_of_rendersAll hn hinner)

theorem isInner_of_rendersAll (hn : L.Numbered) : ∀ {es : List Element}
    {elements : List SequenceElement}, RendersAll E g L place p es elements →
      ∀ e ∈ elements, L.IsInner e.item
  | [], elements, h => by
    rw [RendersAll] at h
    subst h
    exact fun e he => by cases he
  | e :: es, elements, h => by
    rw [RendersAll] at h
    split_ifs at h
    · obtain ⟨id, rest, rfl, hid, hrest⟩ := h
      exact List.forall_mem_cons.mpr ⟨isInner_of_renders hn hid, isInner_of_rendersAll hn hrest⟩
    · exact isInner_of_rendersAll hn h

end

theorem RendersSource.isInner {source : String} {id : ItemId} (hn : L.Numbered)
    (h : RendersSource E g L place p source id) : L.IsInner id := by
  obtain ⟨es, elements, -, hall, hid⟩ := h
  exact hid.isInner (isInner_of_rendersAll hn hall)

/-- A sequence has an element exactly if some element counts. -/
theorem rendersAll_ne_nil_iff : ∀ {es : List Element} {elements : List SequenceElement},
    RendersAll E g L place p es elements → (elements ≠ [] ↔ p.Counts es)
  | [], elements, h => by
    rw [RendersAll] at h
    simp [h, PatternDef.Counts]
  | e :: es, elements, h => by
    rw [RendersAll] at h
    split_ifs at h with hcounts
    · obtain ⟨id, rest, rfl, -, -⟩ := h
      simp [PatternDef.Counts, hcounts]
    · rw [rendersAll_ne_nil_iff h]
      simp [PatternDef.Counts, hcounts]

/-- The elements of a sequence that one element gives: none if it does not count. -/
def RendersOne (E : Engine) (g : Grammar) (L : Layout) (place : Place) (p : PatternDef) (e : Element)
    (elements : List SequenceElement) : Prop :=
  if e.counts p then ∃ id, elements = [⟨id, e.multiplicity⟩] ∧ Renders E g L place p e id
  else elements = []

theorem RendersOne.mono {L' : Layout} {e : Element} {elements : List SequenceElement} (h : L ≤ L')
    (hr : RendersOne E g L place p e elements) : RendersOne E g L' place p e elements := by
  unfold RendersOne at hr ⊢
  split_ifs at hr ⊢
  · obtain ⟨id, rfl, hid⟩ := hr
    exact ⟨id, rfl, renders_mono h hid⟩
  · exact hr

theorem rendersAll_cons {e : Element} {es : List Element} {first rest : List SequenceElement}
    (h : RendersOne E g L place p e first) (hrest : RendersAll E g L place p es rest) :
    RendersAll E g L place p (e :: es) (first ++ rest) := by
  unfold RendersOne at h
  rw [RendersAll]
  split_ifs at h ⊢
  · obtain ⟨id, rfl, hid⟩ := h
    exact ⟨id, rest, rfl, hid, hrest⟩
  · rw [h]
    exact hrest

end Layout

namespace Compile

open Layout

variable {α β : Type} {E : Engine} {g : Grammar} {n : Nat} {opened : List ItemId} {b : GrammarBuild}

/-! ### Running a step -/

/-- What a step leads to. -/
def Runs (x : CompileM α) (b : GrammarBuild) (ok : α → GrammarBuild → Prop)
    (err : GrammarError → Prop) : Prop :=
  match x.run b with
  | .ok (a, b') => ok a b'
  | .error e => err e

theorem Runs.bind {x : CompileM α} {f : α → CompileM β} {ok : β → GrammarBuild → Prop}
    {err : GrammarError → Prop} (h : Runs x b (fun a b' => Runs (f a) b' ok err) err) :
    Runs (x >>= f) b ok err := by
  unfold Runs at h ⊢
  rw [StateT.run_bind]
  rcases hx : x.run b with e | ⟨a, b'⟩
  · rw [hx] at h; exact h
  · rw [hx] at h; exact h

theorem Runs.imp {x : CompileM α} {ok ok' : α → GrammarBuild → Prop}
    {err err' : GrammarError → Prop} (h : Runs x b ok err) (hok : ∀ a b', ok a b' → ok' a b')
    (herr : ∀ e, err e → err' e) : Runs x b ok' err' := by
  unfold Runs at h ⊢
  rcases hx : x.run b with e | ⟨a, b'⟩
  · rw [hx] at h; exact herr e h
  · rw [hx] at h; exact hok a b' h

theorem Runs.mono {x : CompileM α} {ok ok' : α → GrammarBuild → Prop} {err : GrammarError → Prop}
    (h : Runs x b ok err) (hok : ∀ a b', ok a b' → ok' a b') : Runs x b ok' err :=
  h.imp hok fun _ he => he

/-- The tables are in order, and with `n` more levels there is room for all definitions. -/
structure Ready (E : Engine) (g : Grammar) (n : Nat) (opened : List ItemId) (b : GrammarBuild) : Prop
    extends Consistent E g opened b where
  room : g.count ≤ b.compiled.length + n

/-- **A step builds**: it leaves the tables in order and lets them grow, with a result as described, or it
fails for a fault of a reached definition. -/
def Builds (E : Engine) (g : Grammar) (n : Nat) (opened : List ItemId) (b : GrammarBuild)
    (x : CompileM α) (post : α → Layout → Prop) : Prop :=
  Runs x b (fun a b' => Ready E g n opened b' ∧ b.layout g ≤ b'.layout g ∧ post a (b'.layout g))
    (Excused E g)

theorem Builds.pure {a : α} {post : α → Layout → Prop} (hb : Ready E g n opened b)
    (h : post a (b.layout g)) : Builds E g n opened b (Pure.pure a) post :=
  ⟨hb, le_rfl, h⟩

theorem Builds.throw {e : GrammarError} {post : α → Layout → Prop} (h : Excused E g e) :
    Builds E g n opened b (MonadExcept.throw e : CompileM α) post :=
  h

theorem Builds.bind {x : CompileM α} {f : α → CompileM β} {post : α → Layout → Prop}
    {post' : β → Layout → Prop} (hx : Builds E g n opened b x post)
    (hf : ∀ a b', Ready E g n opened b' → b.layout g ≤ b'.layout g → post a (b'.layout g) →
      Builds E g n opened b' (f a) post') : Builds E g n opened b (x >>= f) post' := by
  refine Runs.bind (hx.mono fun a b' ⟨hb', hle, ha⟩ => ?_)
  refine (hf a b' hb' hle ha).mono fun c b'' ⟨hb'', hle', hc⟩ => ?_
  exact ⟨hb'', hle.trans hle', hc⟩

theorem Builds.imp {x : CompileM α} {post post' : α → Layout → Prop}
    (hx : Builds E g n opened b x post)
    (himp : ∀ a L, b.layout g ≤ L → post a L → post' a L) : Builds E g n opened b x post' :=
  hx.mono fun a _ ⟨hb', hle, ha⟩ => ⟨hb', hle, himp a _ hle ha⟩

theorem builds_mapM {f : α → CompileM β} {R : α → β → Layout → Prop}
    (hmono : ∀ a x L L', L ≤ L' → R a x L → R a x L') : ∀ (as : List α) {b : GrammarBuild},
    (∀ a ∈ as, ∀ b, Ready E g n opened b → Builds E g n opened b (f a) (R a)) → Ready E g n opened b →
    Builds E g n opened b (as.mapM f) fun xs L => List.Forall₂ (fun a x => R a x L) as xs
  | [], b, _, hb => by
    rw [List.mapM_nil]
    exact .pure hb .nil
  | a :: as, b, hf, hb => by
    rw [List.mapM_cons]
    refine (hf a (List.mem_cons_self ..) b hb).bind fun x b₁ hb₁ _ hx => ?_
    refine (builds_mapM hmono as (fun a' ha' => hf a' (List.mem_cons_of_mem _ ha')) hb₁).bind
      fun xs b₂ hb₂ hle hxs => ?_
    exact .pure hb₂ (.cons (hmono a x _ _ hle hx) hxs)

/-! ### Single items -/

theorem builds_push {item : Item} {post : ItemId → Layout → Prop} (hb : Ready E g n opened b)
    (hplain : item.isPlain) (hrefs : ∀ r ∈ item.references, (b.layout g).IsInner r)
    (hpost : ∀ L, b.layout g ≤ L → L.item? ⟨b.items.size⟩ = some item →
      Stems E g L ⟨b.items.size⟩ ∧ post ⟨b.items.size⟩ L) :
    Builds E g n opened b (push item) post := by
  have hle := le_withItem g b item
  have hid : ((b.withItem item).layout g).item? ⟨b.items.size⟩ = some item :=
    item?_push_self (L := b.layout g) rfl
  obtain ⟨horigin, h⟩ := hpost _ hle hid
  exact ⟨⟨hb.toConsistent.withItem hplain hrefs horigin, hb.room⟩, hle, h⟩

theorem pushText_of_accepts {text : String} {ignoreCase : Bool} (crossLine : Bool)
    (h : E.accepts (Keyword.source ⟨text.toList, ignoreCase⟩)) :
    pushText E text ignoreCase crossLine = push (.text ⟨text.toList, ignoreCase⟩ crossLine) :=
  if_pos h

theorem pushText_of_not_accepts {text : String} {ignoreCase : Bool} (crossLine : Bool)
    (h : ¬ E.accepts (Keyword.source ⟨text.toList, ignoreCase⟩)) :
    pushText E text ignoreCase crossLine = MonadExcept.throw .invalidRegex :=
  if_neg h

/-- The item of a regular expression, if it is accepted. -/
theorem builds_pushToken (kind : TokenKind) {source : String} {ignoreCase : Bool} (crossLine : Bool)
    (hb : Ready E g n opened b)
    (hrefused : ¬ E.accepts (anchored source ignoreCase) → Excused E g .invalidRegex)
    (horigin : ∀ L id, b.layout g ≤ L → L.IsToken E kind source ignoreCase crossLine id →
      Stems E g L id) :
    Builds E g n opened b (pushToken E kind source ignoreCase crossLine) fun id L =>
      L.IsToken E kind source ignoreCase crossLine id := by
  unfold pushToken
  cases hfinder : E.finder? (anchored source ignoreCase) with
  | none => exact .throw (hrefused (by simp [Engine.accepts, hfinder]))
  | some finder =>
    refine builds_push hb rfl (fun r hr => by cases hr) fun L hle hid => ?_
    have ht : L.IsToken E kind source ignoreCase crossLine ⟨b.items.size⟩ := ⟨finder, hfinder, hid⟩
    exact ⟨horigin L _ hle ht, ht⟩

theorem Builds.get {f : GrammarBuild → CompileM β} {post : β → Layout → Prop}
    (h : Builds E g n opened b (f b) post) : Builds E g n opened b (MonadState.get >>= f) post :=
  h

theorem Builds.modify {f : GrammarBuild → GrammarBuild} {x : Unit → CompileM β}
    {post : β → Layout → Prop} (hle : b.layout g ≤ (f b).layout g)
    (h : Builds E g n opened (f b) (x ()) post) :
    Builds E g n opened b ((modify f : CompileM Unit) >>= x) post :=
  Runs.mono h fun _ _ ⟨hb', hle', hpost⟩ => ⟨hb', hle.trans hle', hpost⟩

theorem mem_of_lookup {κ ν : Type} [BEq κ] [LawfulBEq κ] {k : κ} {v : ν} {l : List (κ × ν)}
    (h : l.lookup k = some v) : (k, v) ∈ l := by
  obtain ⟨l₁, l₂, rfl, -⟩ := List.lookup_eq_some_iff.mp h
  simp

theorem builds_token {place : Place} {p : PatternDef} (kind : TokenKind)
    (hp : Reached g (.pattern place p)) (hb : Ready E g n opened b) :
    Builds E g n opened b (token E kind p.crossLine) fun id L => L.IsBuiltin E kind p.crossLine id := by
  unfold token
  refine .get ?_
  cases hlookup : b.tokens.lookup (kind, p.crossLine) with
  | some id =>
    have ht : (b.layout g).IsBuiltin E kind p.crossLine id :=
      hb.tokens ((kind, p.crossLine), id) (mem_of_lookup hlookup)
    exact .pure hb ht
  | none =>
    have hrefused : ¬ E.accepts (anchored (tokenSource kind) false) → Excused E g .invalidRegex :=
      fun h => absurd (E.builtin (.token kind)) h
    have hpush := builds_pushToken kind p.crossLine hb hrefused fun L id _ ht => .builtin hp ht
    refine hpush.bind fun id b' hb' _ ht => .modify le_rfl (.pure ?_ ht)
    exact ⟨hb'.toConsistent.remember_token ht, hb'.room⟩

end Compile

end ShaderAssist

import ShaderAssist.Proofs.Grammar.Agreement
import ShaderAssist.Proofs.Grammar.Faithful
import ShaderAssist.Proofs.Regex.Literal
import ShaderAssist.Proofs.Text.Spelling

/-!
# When compiling fails

Whatever the engine, a grammar compiles exactly if it has a pattern and all reached definitions are well formed.
If it does not compile, the error is the fault of a reached definition. Definitions that are not reached do not
matter. Whether a definition is well formed is decidable for the standard engine.
-/

namespace ShaderAssist

/-! ### Well-formed definitions -/

/-- An element of a pattern has a meaning, and the engine accepts its text or regular expression. -/
def Element.IsValid (E : Engine) (g : Grammar) (place : Place) (p : PatternDef) : Element → Prop
  | .scope name => (Compile.scopeOfName? g place p name).isSome
  | .regex source => E.accepts (Compile.anchored source p.ignoreCase)
  | .text word => E.accepts (Keyword.source ⟨word.toList, p.ignoreCase⟩)
  | .optional inner _ => p.Counts inner
  | .space | .reference _ => True

/-- **A well-formed definition.** A pattern has a source; all its sources can be read and none of them is an
empty sequence; its elements have a meaning. A scope has delimiters, and the engine accepts them. -/
def Definition.IsWellFormed (E : Engine) (g : Grammar) : Definition → Prop
  | pattern place p => p.sources ≠ [] ∧
      (∀ source ∈ p.sources, ∃ es, Pattern.readElements source = .ok es ∧ p.Counts es) ∧
      ∀ e ∈ p.parts, e.IsValid E g place p
  | scope _ s => (s.opening ≠ "" ∧ s.closing ≠ "") ∧
      ∀ word ∈ [s.opening, s.closing], E.accepts (Keyword.source ⟨word.toList, false⟩)

instance (p : PatternDef) (es : List Element) : Decidable (p.Counts es) :=
  inferInstanceAs (Decidable (∃ e ∈ es, e.counts p))

-- A text with regard to case need not be read as an expression: its length decides.
instance (k : Keyword) : Decidable (Engine.standard.accepts k.source) :=
  match k with
  | ⟨text, false⟩ => decidable_of_iff' _ (Keyword.accepts_source_iff text)
  | ⟨text, true⟩ => decidable_of_iff (Regex.ofSpelled? (Keyword.source ⟨text, true⟩)).isSome
      (by rw [Engine.accepts_standard, Regex.ofSource?_eq_ofSpelled?])

instance (g : Grammar) (place : Place) (p : PatternDef) :
    DecidablePred (Element.IsValid .standard g place p)
  | .scope name => inferInstanceAs (Decidable (Compile.scopeOfName? g place p name).isSome)
  | .regex source => decidable_of_iff (Regex.ofSpelled? (Compile.anchored source p.ignoreCase)).isSome
      (by rw [Element.IsValid, Engine.accepts_standard, Regex.ofSource?_eq_ofSpelled?])
  | .text word => decidable_of_iff
      (Engine.standard.accepts (Keyword.source ⟨spell word, p.ignoreCase⟩))
      (by rw [Element.IsValid, spell_eq_toList])
  | .optional inner _ => inferInstanceAs (Decidable (p.Counts inner))
  | .space | .reference _ => isTrue trivial

instance (p : PatternDef) (source : String) :
    Decidable (∃ es, Pattern.readElements source = .ok es ∧ p.Counts es) :=
  match h : Pattern.readSpelled source with
  | .ok es => decidable_of_iff (p.Counts es) (by simp [Pattern.readElements_eq_readSpelled, h])
  | .error _ => isFalse (by simp [Pattern.readElements_eq_readSpelled, h])

instance (P : Element → Prop) [DecidablePred P] (source : String) :
    Decidable (∀ es, Pattern.readElements source = .ok es → ∀ e ∈ partsOf es, P e) :=
  match h : Pattern.readSpelled source with
  | .ok es => decidable_of_iff (∀ e ∈ partsOf es, P e)
      (by simp [Pattern.readElements_eq_readSpelled, h])
  | .error _ => isTrue (by simp [Pattern.readElements_eq_readSpelled, h])

theorem PatternDef.forall_mem_parts {p : PatternDef} {P : Element → Prop} : (∀ e ∈ p.parts, P e) ↔
    ∀ source ∈ p.sources, ∀ es, Pattern.readElements source = .ok es → ∀ e ∈ partsOf es, P e := by
  constructor
  · exact fun h source hs es hes e he => h e (PatternDef.mem_parts.mpr ⟨source, hs, es, hes, he⟩)
  · intro h e he
    obtain ⟨source, hs, es, hes, he⟩ := PatternDef.mem_parts.mp he
    exact h source hs es hes e he

instance (p : PatternDef) (P : Element → Prop) [DecidablePred P] : Decidable (∀ e ∈ p.parts, P e) :=
  decidable_of_iff' _ PatternDef.forall_mem_parts

instance (g : Grammar) : DecidablePred (Definition.IsWellFormed .standard g)
  | .pattern place p => inferInstanceAs (Decidable (p.sources ≠ [] ∧
      (∀ source ∈ p.sources, ∃ es, Pattern.readElements source = .ok es ∧ p.Counts es) ∧
      ∀ e ∈ p.parts, e.IsValid .standard g place p))
  | .scope _ s => inferInstanceAs (Decidable ((s.opening ≠ "" ∧ s.closing ≠ "") ∧
      ∀ word ∈ [s.opening, s.closing], Engine.standard.accepts (Keyword.source ⟨word.toList, false⟩)))

theorem Fault.not_isWellFormed {E : Engine} {g : Grammar} {d : Definition} {e : GrammarError}
    (h : Fault E g d e) : ¬ d.IsWellFormed E g := by
  intro hd
  cases h with
  | noAlternative h => exact hd.1 h
  | malformed hs h =>
    obtain ⟨es, hes, -⟩ := hd.2.1 _ hs
    cases h.symm.trans hes
  | emptySource hs hes h =>
    obtain ⟨es', hes', hcounts⟩ := hd.2.1 _ hs
    obtain rfl := Except.ok.inj (hes.symm.trans hes')
    exact h hcounts
  | emptyOptional he h => exact h (hd.2.2 _ he)
  | undefinedScope he h =>
    have hvalid := hd.2.2 _ he
    rw [Element.IsValid, h] at hvalid
    cases hvalid
  | invalidRegex he h => exact h (hd.2.2 _ he)
  | unusableText he h => exact h (hd.2.2 _ he)
  | emptyDelimiter h => exact h.elim hd.1.1 hd.1.2
  | unusableDelimiter hmem h => exact h (hd.2 _ hmem)

namespace Layout

variable {E : Engine} {g : Grammar} {L : Layout} {id : ItemId}

/-- An element with a translation has a meaning. -/
theorem Renders.isValid {place : Place} {p : PatternDef} {e : Element}
    (h : Renders E g L place p e id) : e.IsValid E g place p := by
  cases e with
  | space | reference => exact trivial
  | text word =>
    rw [Renders] at h
    exact h.1
  | scope name =>
    rw [Renders] at h
    obtain ⟨d, hd, -⟩ := h
    exact Option.isSome_iff_exists.mpr ⟨d, hd⟩
  | regex source =>
    rw [Renders] at h
    obtain ⟨finder, hfinder, -⟩ := h
    exact Option.isSome_iff_exists.mpr ⟨finder, hfinder⟩
  | optional inner repeats =>
    rw [Renders] at h
    obtain ⟨elements, hall, hcloses⟩ := h
    exact (rendersAll_ne_nil_iff hall).mp hcloses.ne_nil

/-- A definition with a translation is well formed. -/
theorem Compiles.isWellFormed {d : Definition} (h : Compiles E g L d id) : d.IsWellFormed E g := by
  cases d with
  | scope place s =>
    obtain ⟨hdelimiters, scope, opening, closing, body, -, -, hopening, hclosing, -⟩ := h
    exact ⟨hdelimiters, by simp [hopening.1, hclosing.1]⟩
  | pattern place p =>
    refine ⟨h.1, fun source hs => ?_, fun e he => ?_⟩
    · obtain ⟨-, pattern, alternatives, -, -, hall⟩ := h
      obtain ⟨id', -, es, elements, hes, hrenders, hcloses⟩ := exists_of_forall₂ hall.flip source hs
      exact ⟨es, hes, (rendersAll_ne_nil_iff hrenders).mp hcloses.ne_nil⟩
    · by_cases hcounts : e.counts p
      · obtain ⟨id', hid'⟩ := h.exists_renders he hcounts
        exact hid'.isValid
      · -- an element that does not count is a space
        cases e <;> simp_all [Element.counts, Element.isSpace, Element.IsValid]

end Layout

/-! ### Errors -/

/-- An error of a grammar is the fault of a reached definition. -/
theorem excused_of_compile {E : Engine} {g : Grammar} {e : GrammarError} (h : g.compile E = .error e) :
    (e = .noPattern ∧ g.patterns = []) ∨ Excused E g e := by
  have hrun := Compile.runs_document E g
  unfold Compile.Runs at hrun
  unfold Grammar.compile at h
  rcases hd : (Compile.document E g).run {} with e' | ⟨u, b⟩
  · rw [hd] at h hrun
    obtain rfl : e' = e := Except.error.inj h
    exact hrun
  · rw [hd] at h
    cases h

/-- A grammar without patterns does not compile. -/
theorem patterns_ne_nil_of_compile {E : Engine} {g : Grammar} {c : CompiledGrammar}
    (h : g.compile E = .ok c) : g.patterns ≠ [] := by
  intro hnil
  unfold Grammar.compile Compile.document at h
  rw [hnil] at h
  cases h

/-- What is reached in a grammar that compiles is well formed. -/
theorem isWellFormed_of_compile {E : Engine} {g : Grammar} {c : CompiledGrammar} {d : Definition}
    (h : g.compile E = .ok c) (hd : Reached g d) : d.IsWellFormed E g := by
  obtain ⟨b, hb, -⟩ := exists_complete_of_compile h
  obtain ⟨id, hid⟩ := hb.exists_has hd
  exact (hb.compiles hd hid).isWellFormed

theorem exists_compile {E : Engine} {g : Grammar} (hne : g.patterns ≠ [])
    (hall : ∀ d, Reached g d → d.IsWellFormed E g) : ∃ c, g.compile E = .ok c := by
  cases hc : g.compile E with
  | ok c => exact ⟨c, rfl⟩
  | error e =>
    rcases excused_of_compile hc with ⟨-, hnil⟩ | ⟨d, hd, hfault⟩
    · exact absurd hnil hne
    · exact absurd (hall d hd) hfault.not_isWellFormed

/-- **When a grammar compiles**: exactly if it has a pattern and all reached definitions are well formed.
Otherwise the error is that there is no pattern, or the fault of a reached definition. What is not reached
has no effect: every grammar with the same definitions at the reached places gives the same result. -/
theorem compile_ok_iff (E : Engine) (g : Grammar) :
    ((∃ c, g.compile E = .ok c) ↔ g.patterns ≠ [] ∧ ∀ d, Reached g d → d.IsWellFormed E g) ∧
    (∀ e, g.compile E = .error e →
      (e = .noPattern ∧ g.patterns = []) ∨ ∃ d, Reached g d ∧ Fault E g d e) ∧
    ∀ g', Agrees g g' → g'.compile E = g.compile E := by
  refine ⟨⟨?_, ?_⟩, fun e he => excused_of_compile he, fun g' h => Compile.compile_eq_of_agrees h⟩
  · rintro ⟨c, hc⟩
    exact ⟨patterns_ne_nil_of_compile hc, fun d hd => isWellFormed_of_compile hc hd⟩
  · rintro ⟨hne, hall⟩
    exact exists_compile hne hall

/-! ### Definitions that are not reached -/

/-- The places that a definition refers to. -/
def Definition.targets (g : Grammar) : Definition → List Place
  | pattern place p => p.parts.filterMap fun e => (e.target? g place p).map Definition.place
  | scope place s => (placed .body place s.patterns).map Definition.place

theorem Mentions.place_mem_targets {g : Grammar} {d d' : Definition} (h : Mentions g d d') :
    d'.place ∈ d.targets g := by
  cases h with
  | body hd => exact List.mem_map_of_mem hd
  | element he ht => exact List.mem_filterMap.mpr ⟨_, he, by rw [ht]; rfl⟩

/-- Places that are closed under references are all that is reached. -/
theorem Reached.place_mem_of_closed {g : Grammar} (places : List Place)
    (hroots : ∀ d ∈ placed .root [] g.patterns, d.place ∈ places)
    (hclosed : ∀ place ∈ places, ∀ d ∈ g.definitionAt? place, ∀ t ∈ d.targets g, t ∈ places)
    {d : Definition} (h : Reached g d) : d.place ∈ places := by
  induction h with
  | root hd => exact hroots _ hd
  | step hd hmentions ih => exact hclosed _ ih _ hd.definitionAt? _ hmentions.place_mem_targets

/-- The blocks with malformed definitions that nothing refers to, one of them inside a pattern. -/
def faultyBlockGrammar : Grammar where
  patterns := [{ PatternDef.named "Block" ["\x7bblock\x7d"] with dictionary := [("unused", {})] }]
  patternRepository := [("broken", .named "Broken" ["[value", "\x7bnowhere\x7d", "/(/"])]
  scopeRepository := blockGrammar.scopeRepository ++ [("open", { opening := "", closing := "" })]

theorem agrees_faultyBlockGrammar : Agrees blockGrammar faultyBlockGrammar := by
  refine ⟨rfl, rfl, fun d hd => ?_⟩
  have hplace := hd.place_mem_of_closed [[.root 0], [.scopeRepository "block"],
    [.body 0, .scopeRepository "block"], [.body 1, .scopeRepository "block"]]
    (by decide +kernel) (by decide +kernel)
  have hdef := hd.definitionAt?
  simp only [List.mem_cons, List.not_mem_nil, or_false] at hplace
  rcases hplace with h | h | h | h
  · rw [h] at hdef ⊢
    cases hdef
    refine congrArg (fun t => some (Outline.pattern _ t)) ?_
    decide +kernel
  · rw [h] at hdef ⊢
    cases hdef
    rfl
  · rw [h] at hdef ⊢
    cases hdef
    refine congrArg (fun t => some (Outline.pattern _ t)) ?_
    decide +kernel
  · rw [h] at hdef ⊢
    cases hdef
    refine congrArg (fun t => some (Outline.pattern _ t)) ?_
    decide +kernel

/-- The malformed definitions have no effect on the blocks. -/
theorem compile_ok_iff_blocks : Agrees blockGrammar faultyBlockGrammar ∧
    ∀ E : Engine, faultyBlockGrammar.compile E = blockGrammar.compile E :=
  ⟨agrees_faultyBlockGrammar, fun E =>
    (compile_ok_iff E blockGrammar).2.2 faultyBlockGrammar agrees_faultyBlockGrammar⟩

/-! ### Long delimiters -/

/-- A delimiter that is too long to be used. -/
def longDelimiter : String :=
  String.ofList (List.replicate 400000 '<')

/-- Blocks between delimiters that are not empty, one of them too long. -/
def longBlockGrammar : Grammar where
  patterns := [.named "Block" ["\x7bblock\x7d"]]
  scopeRepository := [("block", { opening := longDelimiter, closing := ">" })]

theorem byteLength_replicate (n : Nat) (c : Char) :
    byteLength (List.replicate n c) = n * c.utf8Size := by
  induction n with
  | zero => rw [Nat.zero_mul]; rfl
  | succ n ih => rw [List.replicate_succ, byteLength_cons, ih, Nat.succ_mul, Nat.add_comm]

theorem byteLength_longDelimiter : byteLength longDelimiter.toList = 400000 := by
  unfold longDelimiter
  rw [String.toList_ofList, byteLength_replicate]
  rfl

theorem longDelimiter_ne : longDelimiter ≠ "" := by
  intro hempty
  have hlength := byteLength_longDelimiter
  rw [hempty] at hlength
  cases hlength

theorem not_accepts_longDelimiter :
    ¬ Engine.standard.accepts (Keyword.source ⟨longDelimiter.toList, false⟩) := by
  rw [Keyword.accepts_source_iff, byteLength_longDelimiter]
  unfold Footprint.maxBytes Footprint.stateBytes
  omega

theorem reached_longBlockGrammar {d : Definition} (hd : Reached longBlockGrammar d) :
    d = .pattern [.root 0] (.named "Block" ["\x7bblock\x7d"]) ∨
      d = .scope [.scopeRepository "block"] { opening := longDelimiter, closing := ">" } := by
  have hplace := hd.place_mem_of_closed [[.root 0], [.scopeRepository "block"]]
    (by decide +kernel) (by decide +kernel)
  have hdef := hd.definitionAt?
  simp only [List.mem_cons, List.not_mem_nil, or_false] at hplace
  rcases hplace with h | h
  · rw [h] at hdef
    exact Or.inl (Option.some.inj hdef).symm
  · rw [h] at hdef
    exact Or.inr (Option.some.inj hdef).symm

/-- Delimiters that are not empty are not enough for a grammar to compile. -/
theorem compile_longBlockGrammar : longBlockGrammar.patterns ≠ [] ∧
    (∀ place p, Reached longBlockGrammar (.pattern place p) →
      (Definition.pattern place p).IsWellFormed .standard longBlockGrammar) ∧
    (∀ place s, Reached longBlockGrammar (.scope place s) → s.opening ≠ "" ∧ s.closing ≠ "") ∧
    longBlockGrammar.compile .standard = .error .invalidRegex := by
  have hpattern : ∀ place p, Reached longBlockGrammar (.pattern place p) →
      (Definition.pattern place p).IsWellFormed .standard longBlockGrammar := by
    intro place p hp
    rcases reached_longBlockGrammar hp with h | h
    · rw [h]
      decide +kernel
    · cases h
  have hscope : ∀ place s, Reached longBlockGrammar (.scope place s) →
      s.opening ≠ "" ∧ s.closing ≠ "" := by
    intro place s hs
    rcases reached_longBlockGrammar hs with h | h
    · cases h
    · cases h
      exact ⟨longDelimiter_ne, by decide⟩
  refine ⟨by decide, hpattern, hscope, ?_⟩
  cases hc : longBlockGrammar.compile .standard with
  | ok c =>
    have hpart : .scope "block" ∈ (PatternDef.named "Block" ["\x7bblock\x7d"]).parts :=
      PatternDef.mem_parts.mpr ⟨_, List.mem_singleton.mpr rfl, [.scope "block"],
        by with_unfolding_all rfl, List.mem_singleton.mpr rfl⟩
    have hreached : Reached longBlockGrammar (.scope [.scopeRepository "block"]
        { opening := longDelimiter, closing := ">" }) :=
      .step (.root (List.mem_singleton.mpr rfl)) (.element hpart rfl)
    have haccepted := (isWellFormed_of_compile hc hreached).2 _ (List.mem_cons_self ..)
    exact absurd haccepted not_accepts_longDelimiter
  | error e =>
    -- patterns are well formed, and delimiters are not empty, so there is one error left
    rcases excused_of_compile hc with ⟨-, hnil⟩ | ⟨d, hd, hfault⟩
    · cases hnil
    · cases d with
      | pattern place p => exact absurd (hpattern place p hd) hfault.not_isWellFormed
      | scope place s =>
        cases hfault with
        | emptyDelimiter h => exact (h.elim (hscope place s hd).1 (hscope place s hd).2).elim
        | unusableDelimiter => rfl

end ShaderAssist

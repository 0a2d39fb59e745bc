import Mathlib.Data.List.Basic
import Mathlib.Tactic.Common
import ShaderAssist.Grammar.Compile

/-!
# Reached definitions

A definition is reached if it is a pattern of the document, or if a reached pattern refers to it, or if it
stands in the body of a reached scope. It is determined by its place (`Reached.definitionAt?`), and there
are no more places than the grammar has definitions (`Reached.place_mem`, `Grammar.length_places`).
-/

namespace ShaderAssist

/-! ### Parts of a pattern -/

mutual

/-- An element with all elements inside it. -/
def Element.parts : Element → List Element
  | .optional inner repeats => .optional inner repeats :: partsOf inner
  | e => [e]

/-- All elements in a list of elements. -/
def partsOf : List Element → List Element
  | [] => []
  | e :: es => e.parts ++ partsOf es

end

theorem Element.mem_parts (e : Element) : e ∈ e.parts := by
  cases e <;> simp [Element.parts]

mutual

theorem Element.parts_subset : ∀ {e : Element}, ∀ e' ∈ e.parts, e'.parts ⊆ e.parts
  | .optional inner repeats, e', h => by
    rw [Element.parts] at h ⊢
    rcases List.mem_cons.mp h with rfl | h
    · rw [Element.parts]
      exact List.Subset.refl _
    · exact List.Subset.trans (parts_subset_partsOf e' h) (List.subset_cons_self _ _)
  | .text _, _, h => by rw [List.mem_singleton.mp h]; exact List.Subset.refl _
  | .space, _, h => by rw [List.mem_singleton.mp h]; exact List.Subset.refl _
  | .reference _, _, h => by rw [List.mem_singleton.mp h]; exact List.Subset.refl _
  | .scope _, _, h => by rw [List.mem_singleton.mp h]; exact List.Subset.refl _
  | .regex _, _, h => by rw [List.mem_singleton.mp h]; exact List.Subset.refl _

theorem parts_subset_partsOf : ∀ {es : List Element}, ∀ e' ∈ partsOf es, e'.parts ⊆ partsOf es
  | e :: es, e', h => by
    rw [partsOf] at h ⊢
    rcases List.mem_append.mp h with h | h
    · exact List.Subset.trans (Element.parts_subset e' h) (List.subset_append_left _ _)
    · exact List.Subset.trans (parts_subset_partsOf e' h) (List.subset_append_right _ _)

end

/-- All elements in the sources of a pattern. A source that cannot be read has none. -/
def PatternDef.parts (p : PatternDef) : List Element :=
  p.sources.flatMap fun source => match Pattern.readElements source with
    | .ok es => partsOf es
    | .error _ => []

theorem PatternDef.mem_parts {p : PatternDef} {e : Element} : e ∈ p.parts ↔
    ∃ source ∈ p.sources, ∃ es, Pattern.readElements source = .ok es ∧ e ∈ partsOf es := by
  unfold PatternDef.parts
  rw [List.mem_flatMap]
  refine exists_congr fun source => and_congr_right fun _ => ?_
  cases Pattern.readElements source with
  | error e => simp
  | ok es => simp

theorem PatternDef.mem_parts_of_mem_parts {p : PatternDef} {e e' : Element} (he : e ∈ p.parts)
    (he' : e' ∈ e.parts) : e' ∈ p.parts := by
  obtain ⟨source, hs, es, hes, he⟩ := PatternDef.mem_parts.mp he
  exact PatternDef.mem_parts.mpr ⟨source, hs, es, hes, parts_subset_partsOf e he he'⟩

/-! ### Reached definitions -/

/-- The definition that an element of a pattern refers to, if it is neither a blank nor a token. -/
def Element.target? (g : Grammar) (place : Place) (p : PatternDef) : Element → Option Definition
  | .reference name =>
    if name = " " then none
    else match Compile.tokenOfName? name with
      | some _ => none
      | none => Compile.patternOfName? g place p name
  | .scope name => Compile.scopeOfName? g place p name
  | _ => none

/-- A definition refers to another one. -/
inductive Mentions (g : Grammar) : Definition → Definition → Prop
  | element {place : Place} {p : PatternDef} {e : Element} {d : Definition} :
      e ∈ p.parts → e.target? g place p = some d → Mentions g (.pattern place p) d
  | body {place : Place} {s : ScopeDef} {d : Definition} :
      d ∈ placed .body place s.patterns → Mentions g (.scope place s) d

/-- **The definitions that compiling comes to.** -/
inductive Reached (g : Grammar) : Definition → Prop
  | root {d : Definition} : d ∈ placed .root [] g.patterns → Reached g d
  | step {d d' : Definition} : Reached g d → Mentions g d d' → Reached g d'

theorem mem_placed {step : Nat → PlaceStep} {place : Place} {ps : List PatternDef} {d : Definition} :
    d ∈ placed step place ps ↔ ∃ i p, ps[i]? = some p ∧ d = .pattern (step i :: place) p := by
  unfold placed
  rw [List.mem_map]
  constructor
  · rintro ⟨⟨p, i⟩, h, rfl⟩
    exact ⟨i, p, List.mem_zipIdx_iff_getElem?.mp h, rfl⟩
  · rintro ⟨i, p, h, rfl⟩
    exact ⟨(p, i), List.mem_zipIdx_iff_getElem?.mpr h, rfl⟩

/-- A pattern that a name stands for is in the dictionary of the pattern or in the repository. -/
theorem patternOfName?_cases {g : Grammar} {place : Place} {p : PatternDef} {name : String}
    {d : Definition} (h : Compile.patternOfName? g place p name = some d) :
    (∃ q, p.dictionary.lookup name = some q ∧ d = .pattern (.dictionary name :: place) q) ∨
      ∃ q, g.patternRepository.lookup name = some q ∧ d = .pattern [.patternRepository name] q := by
  unfold Compile.patternOfName? at h
  cases hq : p.dictionary.lookup name with
  | some q =>
    rw [hq] at h
    exact Or.inl ⟨q, rfl, (Option.some.inj h).symm⟩
  | none =>
    rw [hq] at h
    obtain ⟨q, hq', rfl⟩ := Option.map_eq_some_iff.mp h
    exact Or.inr ⟨q, hq', rfl⟩

/-- A scope that a name stands for is among the scopes of the pattern or in the repository. -/
theorem scopeOfName?_cases {g : Grammar} {place : Place} {p : PatternDef} {name : String}
    {d : Definition} (h : Compile.scopeOfName? g place p name = some d) :
    (∃ s, p.scopes.lookup name = some s ∧ d = .scope (.scope name :: place) s) ∨
      ∃ s, g.scopeRepository.lookup name = some s ∧ d = .scope [.scopeRepository name] s := by
  unfold Compile.scopeOfName? at h
  cases hs : p.scopes.lookup name with
  | some s =>
    rw [hs] at h
    exact Or.inl ⟨s, rfl, (Option.some.inj h).symm⟩
  | none =>
    rw [hs] at h
    obtain ⟨s, hs', rfl⟩ := Option.map_eq_some_iff.mp h
    exact Or.inr ⟨s, hs', rfl⟩

/-- What an element refers to stands for the name of a pattern or of a scope. -/
theorem Element.target?_cases {g : Grammar} {place : Place} {p : PatternDef} {e : Element}
    {d : Definition} (h : e.target? g place p = some d) :
    ∃ name, Compile.patternOfName? g place p name = some d ∨
      Compile.scopeOfName? g place p name = some d := by
  cases e with
  | text | space | regex | optional => cases h
  | scope name => exact ⟨name, Or.inr h⟩
  | reference name =>
    simp only [Element.target?] at h
    split_ifs at h
    split at h
    · cases h
    · exact ⟨name, Or.inl h⟩

/-! ### A place holds one definition -/

/-- The definition at a place. -/
def Grammar.definitionAt? (g : Grammar) : Place → Option Definition
  | [.root i] => g.patterns[i]?.map (.pattern [.root i])
  | [.patternRepository key] =>
    (g.patternRepository.lookup key).map (.pattern [.patternRepository key])
  | [.scopeRepository key] => (g.scopeRepository.lookup key).map (.scope [.scopeRepository key])
  | .dictionary key :: place =>
    match definitionAt? g place with
    | some (.pattern _ p) => (p.dictionary.lookup key).map (.pattern (.dictionary key :: place))
    | _ => none
  | .scope key :: place =>
    match definitionAt? g place with
    | some (.pattern _ p) => (p.scopes.lookup key).map (.scope (.scope key :: place))
    | _ => none
  | .body i :: place =>
    match definitionAt? g place with
    | some (.scope _ s) => s.patterns[i]?.map (.pattern (.body i :: place))
    | _ => none
  | _ => none

theorem Reached.definitionAt? {g : Grammar} {d : Definition} (h : Reached g d) :
    g.definitionAt? d.place = some d := by
  induction h with
  | root h =>
    obtain ⟨i, p, hp, rfl⟩ := mem_placed.mp h
    simp [Definition.place, Grammar.definitionAt?, hp]
  | step _ hd ih =>
    cases hd with
    | body h =>
      obtain ⟨i, p, hp, rfl⟩ := mem_placed.mp h
      rw [Definition.place] at ih
      simp [Definition.place, Grammar.definitionAt?, ih, hp]
    | element _ ht =>
      rw [Definition.place] at ih
      obtain ⟨name, hn | hn⟩ := Element.target?_cases ht
      · rcases patternOfName?_cases hn with ⟨q, hq, rfl⟩ | ⟨q, hq, rfl⟩
        · simp [Definition.place, Grammar.definitionAt?, ih, hq]
        · simp [Definition.place, Grammar.definitionAt?, hq]
      · rcases scopeOfName?_cases hn with ⟨s, hs, rfl⟩ | ⟨s, hs, rfl⟩
        · simp [Definition.place, Grammar.definitionAt?, ih, hs]
        · simp [Definition.place, Grammar.definitionAt?, hs]

/-- **Reached definitions are told apart by their places.** -/
theorem Reached.eq_of_place {g : Grammar} {d d' : Definition} (h : Reached g d) (h' : Reached g d')
    (hplace : d.place = d'.place) : d = d' := by
  have heq := h.definitionAt?
  rw [hplace, h'.definitionAt?] at heq
  exact (Option.some.inj heq).symm

/-! ### The number of places -/

mutual

/-- The places in a pattern, with its own. -/
def PatternDef.places (place : Place) : PatternDef → List Place
  | { dictionary, scopes, .. } =>
    place :: (patternPlaces .dictionary place dictionary ++ scopePlaces .scope place scopes)

/-- The places in a table of patterns. -/
def patternPlaces (step : String → PlaceStep) (place : Place) :
    List (String × PatternDef) → List Place
  | [] => []
  | (key, p) :: rest => p.places (step key :: place) ++ patternPlaces step place rest

/-- The places in a table of scopes. -/
def scopePlaces (step : String → PlaceStep) (place : Place) : List (String × ScopeDef) → List Place
  | [] => []
  | (key, s) :: rest => s.places (step key :: place) ++ scopePlaces step place rest

/-- The places in a scope, with its own. -/
def ScopeDef.places (place : Place) : ScopeDef → List Place
  | { patterns, .. } => place :: bodyPlaces .body place 0 patterns

/-- The places in a list of patterns that are counted from `i` on. -/
def bodyPlaces (step : Nat → PlaceStep) (place : Place) (i : Nat) : List PatternDef → List Place
  | [] => []
  | p :: rest => p.places (step i :: place) ++ bodyPlaces step place (i + 1) rest

end

/-- The places in a definition, with its own. -/
def Definition.places : Definition → List Place
  | pattern place p => p.places place
  | scope place s => s.places place

/-- The places in a grammar. -/
def Grammar.places (g : Grammar) : List Place :=
  bodyPlaces .root [] 0 g.patterns ++ patternPlaces .patternRepository [] g.patternRepository ++
    scopePlaces .scopeRepository [] g.scopeRepository

mutual

theorem PatternDef.length_places (place : Place) : ∀ p : PatternDef,
    (p.places place).length = p.count
  | { dictionary, scopes, .. } => by
    have h1 := length_patternPlaces .dictionary place dictionary
    have h2 := length_scopePlaces .scope place scopes
    simp only [PatternDef.places, PatternDef.count, List.length_cons, List.length_append, h1, h2]
    omega

theorem length_patternPlaces (step : String → PlaceStep) (place : Place) :
    ∀ table : List (String × PatternDef),
      (patternPlaces step place table).length = countPatternTable table
  | [] => rfl
  | (key, p) :: rest => by
    have h1 := p.length_places (step key :: place)
    have h2 := length_patternPlaces step place rest
    simp only [patternPlaces, countPatternTable, List.length_append, h1, h2]

theorem length_scopePlaces (step : String → PlaceStep) (place : Place) :
    ∀ table : List (String × ScopeDef),
      (scopePlaces step place table).length = countScopeTable table
  | [] => rfl
  | (key, s) :: rest => by
    have h1 := s.length_places (step key :: place)
    have h2 := length_scopePlaces step place rest
    simp only [scopePlaces, countScopeTable, List.length_append, h1, h2]

theorem ScopeDef.length_places (place : Place) : ∀ s : ScopeDef, (s.places place).length = s.count
  | { patterns, .. } => by
    have h := length_bodyPlaces .body place 0 patterns
    simp only [ScopeDef.places, ScopeDef.count, List.length_cons, h]
    omega

theorem length_bodyPlaces (step : Nat → PlaceStep) (place : Place) : ∀ (i : Nat)
    (ps : List PatternDef), (bodyPlaces step place i ps).length = countPatterns ps
  | _, [] => rfl
  | i, p :: rest => by
    have h1 := p.length_places (step i :: place)
    have h2 := length_bodyPlaces step place (i + 1) rest
    simp only [bodyPlaces, countPatterns, List.length_append, h1, h2]

end

theorem Grammar.length_places (g : Grammar) : g.places.length = g.count := by
  unfold Grammar.places Grammar.count
  simp only [List.length_append, length_bodyPlaces, length_patternPlaces, length_scopePlaces]

theorem Definition.place_mem_places (d : Definition) : d.place ∈ d.places := by
  rcases d with ⟨place, ⟨⟩⟩ | ⟨place, ⟨⟩⟩ <;>
    simp [Definition.place, Definition.places, PatternDef.places, ScopeDef.places]

theorem places_subset_patternPlaces {step : String → PlaceStep} {place : Place} {name : String}
    {p : PatternDef} : ∀ {table : List (String × PatternDef)}, table.lookup name = some p →
      p.places (step name :: place) ⊆ patternPlaces step place table
  | (key, q) :: rest, h => by
    rw [List.lookup_cons] at h
    rw [patternPlaces]
    split at h
    · rename_i hk
      obtain rfl := eq_of_beq hk
      obtain rfl := Option.some.inj h
      exact List.subset_append_left _ _
    · exact List.Subset.trans (places_subset_patternPlaces h) (List.subset_append_right _ _)

theorem places_subset_scopePlaces {step : String → PlaceStep} {place : Place} {name : String}
    {s : ScopeDef} : ∀ {table : List (String × ScopeDef)}, table.lookup name = some s →
      s.places (step name :: place) ⊆ scopePlaces step place table
  | (key, t) :: rest, h => by
    rw [List.lookup_cons] at h
    rw [scopePlaces]
    split at h
    · rename_i hk
      obtain rfl := eq_of_beq hk
      obtain rfl := Option.some.inj h
      exact List.subset_append_left _ _
    · exact List.Subset.trans (places_subset_scopePlaces h) (List.subset_append_right _ _)

theorem places_subset_bodyPlaces (step : Nat → PlaceStep) (place : Place) {p : PatternDef} :
    ∀ {ps : List PatternDef} (k : Nat) {i : Nat}, ps[i]? = some p →
      p.places (step (k + i) :: place) ⊆ bodyPlaces step place k ps
  | q :: rest, k, 0, h => by
    obtain rfl : q = p := Option.some.inj h
    rw [bodyPlaces]
    exact List.subset_append_left _ _
  | q :: rest, k, i + 1, h => by
    rw [List.getElem?_cons_succ] at h
    have hrest := places_subset_bodyPlaces step place (k + 1) h
    rw [show k + 1 + i = k + (i + 1) by omega] at hrest
    rw [bodyPlaces]
    exact List.Subset.trans hrest (List.subset_append_right _ _)

theorem places_subset_of_mem_placed {step : Nat → PlaceStep} {place : Place} {ps : List PatternDef}
    {d : Definition} (h : d ∈ placed step place ps) : d.places ⊆ bodyPlaces step place 0 ps := by
  obtain ⟨i, p, hp, rfl⟩ := mem_placed.mp h
  have := places_subset_bodyPlaces step place 0 hp
  rwa [Nat.zero_add] at this

/-- A definition that is referred to stands inside the other one, or in a repository. -/
theorem Mentions.places_subset {g : Grammar} {d d' : Definition} (h : Mentions g d d') :
    d'.places ⊆ d.places ∨ d'.places ⊆ g.places := by
  cases h with
  | @body place s _ h =>
    refine Or.inl (List.Subset.trans (places_subset_of_mem_placed h) ?_)
    rcases s with ⟨⟩
    exact List.subset_cons_self _ _
  | @element place p e _ _ ht =>
    obtain ⟨name, hn | hn⟩ := Element.target?_cases ht
    · rcases patternOfName?_cases hn with ⟨q, hq, rfl⟩ | ⟨q, hq, rfl⟩
      · refine Or.inl (List.Subset.trans (places_subset_patternPlaces hq) ?_)
        rcases p with ⟨⟩
        exact List.Subset.trans (List.subset_append_left _ _) (List.subset_cons_self _ _)
      · refine Or.inr (List.Subset.trans (places_subset_patternPlaces hq) ?_)
        exact List.Subset.trans (List.subset_append_right _ _) (List.subset_append_left _ _)
    · rcases scopeOfName?_cases hn with ⟨s, hs, rfl⟩ | ⟨s, hs, rfl⟩
      · refine Or.inl (List.Subset.trans (places_subset_scopePlaces hs) ?_)
        rcases p with ⟨⟩
        exact List.Subset.trans (List.subset_append_right _ _) (List.subset_cons_self _ _)
      · exact Or.inr (List.Subset.trans (places_subset_scopePlaces hs) (List.subset_append_right _ _))

/-- **A reached definition stands at a place of the grammar.** -/
theorem Reached.place_mem {g : Grammar} {d : Definition} (h : Reached g d) : d.place ∈ g.places := by
  suffices hsub : d.places ⊆ g.places from hsub d.place_mem_places
  induction h with
  | root h =>
    refine List.Subset.trans (places_subset_of_mem_placed h) ?_
    exact List.Subset.trans (List.subset_append_left _ _) (List.subset_append_left _ _)
  | step _ hd ih =>
    rcases hd.places_subset with h | h
    · exact List.Subset.trans h ih
    · exact h

end ShaderAssist

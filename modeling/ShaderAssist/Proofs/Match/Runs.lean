import ShaderAssist.Proofs.Match.Cursor

/-!
# Runs of the loops

The loops of the matcher as relations: the elements of a sequence one after the other (`ElementsRun`), and
the content of a scope or of a document piece by piece (`ContentRun`). The relations speak of what is
tried and of nothing else; in particular they do not ask whether the cursor stays inside the text.

If every attempt gives a result that lies where it should (`Sound`), then the functions follow these
relations (`elementsRun_matchElements`, `contentRun_matchRegion`, `contentRun_matchLines`): the bounds that
the functions ask for always hold.
-/

namespace ShaderAssist

namespace Matcher

variable {m : Matcher} {attempt : Attempt}

/-- Every attempt at a boundary gives a result that lies where it should. -/
def Sound (m : Matcher) (attempt : Attempt) : Prop :=
  ∀ id o, m.document.IsBoundary o → (attempt id o).value.PlacedAt m.document o

/-! ### Items at one offset -/

/-- The results of some items at an offset. -/
def tries (attempt : Attempt) (items : List ItemId) (o : Nat) : List Match :=
  items.map fun item => (attempt item o).value

/-- The result `r` at an offset is acceptable, and it is the first one among those of some items. -/
def FirstOf (accept : Match → Bool) (attempt : Attempt) (items : List ItemId) (o : Nat) (r : Match) :
    Prop :=
  ∃ before item after, items = before ++ item :: after ∧
    (∀ b ∈ before, ¬ accept (attempt b o).value) ∧ accept (attempt item o).value ∧
      r = (attempt item o).value

/-- No result of some items at an offset is acceptable. -/
def NoneOf (accept : Match → Bool) (attempt : Attempt) (items : List ItemId) (o : Nat) : Prop :=
  ∀ item ∈ items, ¬ accept (attempt item o).value

theorem firstAccepted_cases (accept : Match → Bool) (attempt : Attempt) (o : Nat) :
    ∀ items : List ItemId,
      (∃ r, FirstOf accept attempt items o r ∧
        (firstAccepted accept attempt o items).value = .ok r) ∨
      (NoneOf accept attempt items o ∧
        (firstAccepted accept attempt o items).value = .error (tries attempt items o))
  | [] => Or.inr ⟨fun _ h => by simp at h, rfl⟩
  | item :: items => by
    rw [firstAccepted, Traced.value_bind]
    by_cases h : accept (attempt item o).value
    · rw [if_pos h]
      exact Or.inl ⟨_, ⟨[], item, items, rfl, by simp, h, rfl⟩, rfl⟩
    · rw [if_neg h, Traced.value_bind]
      rcases firstAccepted_cases accept attempt o items with ⟨r, hr, he⟩ | ⟨hn, he⟩
      · obtain ⟨before, x, after, rfl, hb, hx, rfl⟩ := hr
        refine Or.inl ⟨_, ⟨item :: before, x, after, rfl, ?_, hx, rfl⟩, by rw [he]; rfl⟩
        rintro b hb'
        rcases List.mem_cons.mp hb' with rfl | hb'
        · exact h
        · exact hb b hb'
      · refine Or.inr ⟨?_, by rw [he]; rfl⟩
        rintro b hb
        rcases List.mem_cons.mp hb with rfl | hb
        · exact h
        · exact hn b hb

theorem Sound.tries (ha : m.Sound attempt) {o : Nat} (ho : m.document.IsBoundary o)
    (items : List ItemId) {r : Match} (hr : r ∈ tries attempt items o) :
    r.PlacedAt m.document o := by
  obtain ⟨item, -, rfl⟩ := List.mem_map.mp hr
  exact ha item o ho

theorem Sound.isBoundary_furthest (ha : m.Sound attempt) {o : Nat} (ho : m.document.IsBoundary o)
    (items : List ItemId) :
    m.document.IsBoundary (Match.furthest o (Matcher.tries attempt items o)) :=
  Match.isBoundary_furthest ho fun _ hr => (ha.tries ho items hr).stop

theorem Sound.skippedLine (ha : m.Sound attempt) {o : Nat} (ho : m.document.IsBoundary o)
    {items : List ItemId} {line : Match} {next : Option Nat}
    (h : m.skipLine o (Matcher.tries attempt items o) = (line, next)) :
    m.SkippedLine o (Matcher.tries attempt items o) line next := by
  have := skippedLine_skipLine (ha.isBoundary_furthest ho items)
  rw [h] at this
  exact this

/-! ### Sequences -/

/-- The elements of a sequence from an offset on, with the results that are kept and whether all
elements matched. An element that may stand many times is tried again as long as it advances. -/
inductive ElementsRun (attempt : Attempt) :
    List SequenceElement → Nat → List Match → Bool → Prop
  | done {o : Nat} : ElementsRun attempt [] o [] true
  | failed {item : ItemId} {es : List SequenceElement} {o : Nat} :
    ¬ (attempt item o).value.isMatched →
      ElementsRun attempt (⟨item, .one⟩ :: es) o [(attempt item o).value] false
  | left {item : ItemId} {k : Multiplicity} {es : List SequenceElement} {o : Nat} {rs : List Match}
    {b : Bool} : k ≠ .one → ¬ (attempt item o).value.isMatched → ElementsRun attempt es o rs b →
      ElementsRun attempt (⟨item, k⟩ :: es) o rs b
  | passed {item : ItemId} {k : Multiplicity} {es : List SequenceElement} {o : Nat}
    {rs : List Match} {b : Bool} : (attempt item o).value.isMatched →
      (k = .many → (attempt item o).value.stop ≤ o) →
      ElementsRun attempt es (attempt item o).value.stop rs b →
      ElementsRun attempt (⟨item, k⟩ :: es) o ((attempt item o).value :: rs) b
  | again {item : ItemId} {es : List SequenceElement} {o : Nat} {rs : List Match} {b : Bool} :
    (attempt item o).value.isMatched → o < (attempt item o).value.stop →
      ElementsRun attempt (⟨item, .many⟩ :: es) (attempt item o).value.stop rs b →
      ElementsRun attempt (⟨item, .many⟩ :: es) o ((attempt item o).value :: rs) b

theorem value_matchMany (attempt : Attempt) (size : Nat) (item : ItemId) (o : Nat) :
    (matchMany attempt size item o).value =
      if !(attempt item o).value.isMatched then []
      else if o < (attempt item o).value.stop ∧ (attempt item o).value.stop ≤ size then
        (attempt item o).value :: (matchMany attempt size item (attempt item o).value.stop).value
      else [(attempt item o).value] := by
  rw [matchMany, Traced.value_bind]
  split_ifs <;> rfl

theorem isBoundary_matchMany (ha : m.Sound attempt) (item : ItemId) {o : Nat}
    (ho : m.document.IsBoundary o) :
    ∀ r ∈ (matchMany attempt m.document.size item o).value, m.document.IsBoundary r.stop := by
  induction h : m.document.size - o using Nat.strong_induction_on generalizing o with
  | _ n ih =>
  subst h
  have hp := ha item o ho
  have hsize := hp.stop.le_size
  rw [value_matchMany]
  split_ifs with h1 h2
  · intro r hr
    simp at hr
  · intro r hr
    rcases List.mem_cons.mp hr with rfl | hr
    · exact hp.stop
    · exact ih _ (by omega) hp.stop rfl r hr
  · intro r hr
    rw [List.mem_singleton.mp hr]
    exact hp.stop

/-- The matches of an element that may stand many times, and the elements behind it. -/
theorem elementsRun_matchMany (ha : m.Sound attempt) (item : ItemId) {es : List SequenceElement}
    {rs : List Match} {b : Bool} {o : Nat} (ho : m.document.IsBoundary o) :
    ElementsRun attempt es
      (((matchMany attempt m.document.size item o).value.getLast?.map Match.stop).getD o) rs b →
    ElementsRun attempt (⟨item, .many⟩ :: es) o
      ((matchMany attempt m.document.size item o).value ++ rs) b := by
  -- the distance to the end of the text decreases with every match that advances
  induction h : m.document.size - o using Nat.strong_induction_on generalizing o with
  | _ n ih =>
  subst h
  have hp := ha item o ho
  have hsize := hp.stop.le_size
  rw [value_matchMany]
  split_ifs with h1 h2
  · intro hrs
    exact .left (by decide) (by simpa using h1) hrs
  · intro hrs
    refine .again (by simpa using h1) h2.1 (ih _ (by omega) hp.stop rfl ?_)
    rw [List.getLast?_cons, Option.map_some, Option.getD_some] at hrs
    rcases hl : (matchMany attempt m.document.size item (attempt item o).value.stop).value.getLast?
      with _ | last
    · rw [hl] at hrs; exact hrs
    · rw [hl] at hrs; exact hrs
  · intro hrs
    exact .passed (by simpa using h1) (fun _ => by omega) hrs

/-- **Sequences follow their run.** -/
theorem elementsRun_matchElements (ha : m.Sound attempt) : ∀ (es : List SequenceElement) {o : Nat},
    m.document.IsBoundary o →
      ElementsRun attempt es o (matchElements attempt m.document.size es o).value.1
        (matchElements attempt m.document.size es o).value.2
  | [], o, _ => .done
  | ⟨item, .one⟩ :: es, o, ho => by
    rw [matchElements, Traced.value_bind]
    by_cases h : (attempt item o).value.isMatched
    · rw [if_pos h]
      exact .passed h (fun h => by simp at h) (elementsRun_matchElements ha es (ha item o ho).stop)
    · rw [if_neg h]
      exact .failed h
  | ⟨item, .optional⟩ :: es, o, ho => by
    rw [matchElements, Traced.value_bind]
    by_cases h : (attempt item o).value.isMatched
    · rw [if_pos h]
      exact .passed h (fun h => by simp at h) (elementsRun_matchElements ha es (ha item o ho).stop)
    · rw [if_neg h]
      exact .left (by decide) h (elementsRun_matchElements ha es ho)
  | ⟨item, .many⟩ :: es, o, ho => by
    rw [matchElements, Traced.value_bind]
    refine elementsRun_matchMany ha item ho (elementsRun_matchElements ha es ?_)
    rcases hl : (matchMany attempt m.document.size item o).value.getLast? with _ | last
    · exact ho
    · exact isBoundary_matchMany ha item ho last (List.mem_of_getLast? hl)

/-! ### Scopes and documents -/

/-- A result of a body that matched and came past the cursor. -/
def advances (cursor : Nat) (r : Match) : Bool :=
  r.isMatched && cursor < r.stop

theorem advances_iff {cursor : Nat} {r : Match} :
    advances cursor r ↔ r.isMatched ∧ cursor < r.stop := by
  rw [advances, Bool.and_eq_true_iff, decide_eq_true_iff]

section Content
variable (m : Matcher) (attempt : Attempt) (body : List ItemId) (Last : Nat → List Match → Prop)
  (Goes : Nat → Prop)

/-- The content of a scope or of a document from an offset on, with its pieces and whether it came to
its proper end. `Last` says what stands at the proper end, and `Goes` that it is not reached yet. Every
piece is a match of the body that advances, or a line that nothing explains. -/
inductive ContentRun : Nat → List Match → Bool → Prop
  | last {o : Nat} {rs : List Match} : Last (m.skip o true) rs → ContentRun o rs true
  | item {o : Nat} {r : Match} {rs : List Match} {b : Bool} :
      FirstOf (advances (m.skip o true)) attempt body (m.skip o true) r → ContentRun r.stop rs b →
      ContentRun o (r :: rs) b
  | line {o next : Nat} {line : Match} {rs : List Match} {b : Bool} : Goes (m.skip o true) →
      NoneOf (advances (m.skip o true)) attempt body (m.skip o true) →
      m.skipLine (m.skip o true) (tries attempt body (m.skip o true)) = (line, some next) →
      ContentRun next rs b → ContentRun o (line :: rs) b
  | lastLine {o : Nat} {line : Match} : Goes (m.skip o true) →
      NoneOf (advances (m.skip o true)) attempt body (m.skip o true) →
      m.skipLine (m.skip o true) (tries attempt body (m.skip o true)) = (line, none) →
      ContentRun o [line] false

end Content

/-- The closing delimiter at an offset where no pattern of the body advances. -/
def Closes (attempt : Attempt) (closing : ItemId) (body : List ItemId) (o : Nat) (rs : List Match) :
    Prop :=
  NoneOf (advances o) attempt body o ∧ (attempt closing o).value.isMatched ∧
    rs = [(attempt closing o).value]

/-- The content of a scope. -/
abbrev RegionRun (m : Matcher) (attempt : Attempt) (closing : ItemId) (body : List ItemId) :
    Nat → List Match → Bool → Prop :=
  ContentRun m attempt body (Closes attempt closing body)
    fun o => ¬ (attempt closing o).value.isMatched

/-- The content of a document. -/
abbrev LinesRun (m : Matcher) (attempt : Attempt) (body : List ItemId) :
    Nat → List Match → Bool → Prop :=
  ContentRun m attempt body (fun o rs => m.document.size ≤ o ∧ rs = []) fun o => o < m.document.size

theorem matchBody_eq (attempt : Attempt) (body : List ItemId) (o : Nat) :
    matchBody attempt body o = firstAccepted (advances o) attempt o body := rfl

/-- A result of the body that advances comes nearer to the end of the text. -/
theorem FirstOf.advances (ha : m.Sound attempt) {o cursor : Nat} {body : List ItemId} {r : Match}
    (hc : m.document.Passes o cursor) (h : FirstOf (Matcher.advances cursor) attempt body cursor r) :
    o < r.stop ∧ r.stop ≤ m.document.size ∧ r.PlacedAt m.document cursor := by
  obtain ⟨-, item, -, -, -, hr, rfl⟩ := h
  have hp := ha item cursor hc.isBoundary_right
  exact ⟨lt_of_le_of_lt hc.le (advances_iff.mp hr).2, hp.stop.le_size, hp⟩

/-- The line after a skipped one comes nearer to the end of the text. -/
theorem SkippedLine.advances {o cursor next : Nat} {attempts : List Match} {line : Match}
    (hc : m.document.Passes o cursor) (h : m.SkippedLine cursor attempts line (some next)) :
    o < next ∧ next ≤ m.document.size := by
  obtain ⟨hlt, hpass⟩ := h.leads next rfl
  have h1 := hc.le
  have h2 := Match.le_furthest attempts cursor
  have h3 := h.furthest_le
  exact ⟨by omega, hpass.isBoundary_right.le_size⟩

theorem FirstOf.isSkippedLine {o cursor : Nat} {body : List ItemId} {r : Match}
    (h : FirstOf (Matcher.advances cursor) attempt body o r) : r.info.isSkippedLine = false := by
  obtain ⟨-, item, -, -, -, hr, rfl⟩ := h
  exact Match.isSkippedLine_of_isMatched (advances_iff.mp hr).1

theorem SkippedLine.isSkippedLine {o : Nat} {attempts : List Match} {line : Match}
    {next : Option Nat} (h : m.SkippedLine o attempts line next) : line.info.isSkippedLine := by
  rw [h.line_eq, MatchInfo.isSkippedLine, Match.kind_withRange, Match.kind_ofChildren]
  rfl

/-- **Scopes follow their run.** -/
theorem contentRun_matchRegion (ha : m.Sound attempt) (closing : ItemId) (body : List ItemId)
    {o : Nat} (ho : m.document.IsBoundary o) :
    RegionRun m attempt closing body o (m.matchRegion attempt closing body o).value.1
      (m.matchRegion attempt closing body o).value.2 := by
  induction h : m.document.size - o using Nat.strong_induction_on generalizing o with
  | _ n ih =>
  subst h
  have hc := passes_skip ho true
  rw [matchRegion, Traced.value_bind, matchBody_eq]
  rcases firstAccepted_cases (advances (m.skip o true)) attempt (m.skip o true) body with
    ⟨r, hr, he⟩ | ⟨hn, he⟩
  · rw [he]
    obtain ⟨h1, h2, hp⟩ := hr.advances ha hc
    dsimp only
    rw [if_pos ⟨h1, h2⟩]
    exact .item hr (ih _ (by omega) hp.stop rfl)
  · rw [he]
    dsimp only
    rw [Traced.value_bind]
    by_cases hl : (attempt closing (m.skip o true)).value.isMatched
    · rw [if_pos hl]
      exact .last ⟨hn, hl, rfl⟩
    · rw [if_neg hl]
      rcases hs : m.skipLine (m.skip o true) (tries attempt body (m.skip o true)) with
        ⟨line, _ | next⟩
      · exact .lastLine hl hn hs
      · have hk := ha.skippedLine hc.isBoundary_right hs
        obtain ⟨h1, h2⟩ := hk.advances hc
        dsimp only
        rw [if_pos ⟨h1, h2⟩]
        exact .line hl hn hs (ih _ (by omega) (hk.leads next rfl).2.isBoundary_right rfl)

/-- **Documents follow their run**, and they are complete unless a piece is a skipped line. -/
theorem contentRun_matchLines (ha : m.Sound attempt) (body : List ItemId) {o : Nat}
    (ho : m.document.IsBoundary o) :
    ∃ b, LinesRun m attempt body o (m.matchLines attempt body o).value.1 b ∧
      (m.matchLines attempt body o).value.2 =
        !(m.matchLines attempt body o).value.1.any fun r => r.info.isSkippedLine := by
  induction h : m.document.size - o using Nat.strong_induction_on generalizing o with
  | _ n ih =>
  subst h
  have hc := passes_skip ho true
  rw [matchLines]
  by_cases hend : m.document.size ≤ m.skip o true
  · dsimp only
    rw [if_pos hend]
    exact ⟨true, .last ⟨hend, rfl⟩, rfl⟩
  have hgoes : m.skip o true < m.document.size := Nat.lt_of_not_le hend
  dsimp only
  rw [if_neg hend, Traced.value_bind, matchBody_eq]
  rcases firstAccepted_cases (advances (m.skip o true)) attempt (m.skip o true) body with
    ⟨r, hr, he⟩ | ⟨hn, he⟩
  · rw [he]
    obtain ⟨h1, h2, hp⟩ := hr.advances ha hc
    obtain ⟨b, hb, hcomplete⟩ := ih _ (by omega) hp.stop rfl
    dsimp only
    rw [if_pos ⟨h1, h2⟩]
    refine ⟨b, .item hr hb, ?_⟩
    simp only [Traced.value_bind, Traced.value_pure, List.any_cons, hr.isSkippedLine, Bool.false_or]
    exact hcomplete
  · rw [he]
    rcases hs : m.skipLine (m.skip o true) (tries attempt body (m.skip o true)) with
      ⟨line, _ | next⟩
    · have hk := ha.skippedLine hc.isBoundary_right hs
      dsimp only
      rw [hs]
      exact ⟨false, .lastLine hgoes hn hs, by simp [hk.isSkippedLine]⟩
    · have hk := ha.skippedLine hc.isBoundary_right hs
      obtain ⟨h1, h2⟩ := hk.advances hc
      obtain ⟨b, hb, -⟩ := ih _ (by omega) (hk.leads next rfl).2.isBoundary_right rfl
      dsimp only
      rw [hs]
      dsimp only
      rw [if_pos ⟨h1, h2⟩]
      exact ⟨b, .line hgoes hn hs hb, by simp [hk.isSkippedLine]⟩

/-! ### Where the results of a run lie -/

theorem ElementsRun.follow (ha : m.Sound attempt) {es : List SequenceElement} {o : Nat}
    {rs : List Match} {b : Bool} (h : ElementsRun attempt es o rs b)
    (ho : m.document.IsBoundary o) : Match.Follow m.document o rs := by
  induction h with
  | done => trivial
  | failed _ => exact (ha _ _ ho).follow trivial
  | left _ _ _ ih => exact ih ho
  | passed _ _ _ ih => exact (ha _ _ ho).follow (ih (ha _ _ ho).stop)
  | again _ _ _ ih => exact (ha _ _ ho).follow (ih (ha _ _ ho).stop)

theorem SkippedLine.start_eq {o : Nat} {attempts : List Match} {line : Match} {next : Option Nat}
    (h : m.SkippedLine o attempts line next) : line.start = o := by
  rw [h.line_eq, Match.start_withRange]

theorem SkippedLine.offset_le {o : Nat} {attempts : List Match} {line : Match} {next : Option Nat}
    (h : m.SkippedLine o attempts line next) : o ≤ line.stop :=
  le_trans (Match.le_furthest attempts o) h.furthest_le

theorem SkippedLine.follow {o : Nat} {attempts rs : List Match} {line : Match} {next : Option Nat}
    (h : m.SkippedLine o attempts line next) (ho : m.document.IsBoundary o)
    (hrs : Match.Follow m.document line.stop rs) : Match.Follow m.document o (line :: rs) :=
  ⟨by rw [h.start_eq]; exact .refl ho, by rw [h.start_eq]; exact h.offset_le, h.stop, hrs⟩

section
variable {body : List ItemId} {Last : Nat → List Match → Prop} {Goes : Nat → Prop} {o : Nat}
  {rs : List Match} {b : Bool}

/-- The pieces of a content follow each other if what stands at the end follows them. -/
theorem ContentRun.follow (ha : m.Sound attempt)
    (hlast : ∀ c rs, m.document.IsBoundary c → Last c rs → Match.Follow m.document c rs)
    (h : ContentRun m attempt body Last Goes o rs b) (ho : m.document.IsBoundary o) :
    Match.Follow m.document o rs := by
  induction h with
  | last hl =>
    have hc := passes_skip ho true
    exact .of_passes hc (hlast _ _ hc.isBoundary_right hl)
  | item hr _ ih =>
    have hc := passes_skip ho true
    obtain ⟨-, -, hp⟩ := hr.advances ha hc
    exact .of_passes hc (hp.follow (ih hp.stop))
  | line _ _ hs _ ih =>
    have hc := passes_skip ho true
    have hk := ha.skippedLine hc.isBoundary_right hs
    obtain ⟨-, hn⟩ := hk.leads _ rfl
    exact .of_passes hc (hk.follow hc.isBoundary_right (.of_passes hn (ih hn.isBoundary_right)))
  | lastLine _ _ hs =>
    have hc := passes_skip ho true
    have hk := ha.skippedLine hc.isBoundary_right hs
    exact .of_passes hc (hk.follow hc.isBoundary_right trivial)

end

theorem RegionRun.follow (ha : m.Sound attempt) {closing : ItemId} {body : List ItemId} {o : Nat}
    {rs : List Match} {b : Bool} (h : RegionRun m attempt closing body o rs b)
    (ho : m.document.IsBoundary o) : Match.Follow m.document o rs := by
  refine ContentRun.follow ha ?_ h ho
  rintro c rs hc ⟨-, -, rfl⟩
  exact (ha closing c hc).follow trivial

theorem LinesRun.follow (ha : m.Sound attempt) {body : List ItemId} {o : Nat}
    {rs : List Match} {b : Bool} (h : LinesRun m attempt body o rs b)
    (ho : m.document.IsBoundary o) : Match.Follow m.document o rs := by
  refine ContentRun.follow ha ?_ h ho
  rintro c rs - ⟨-, rfl⟩
  trivial

end Matcher

end ShaderAssist

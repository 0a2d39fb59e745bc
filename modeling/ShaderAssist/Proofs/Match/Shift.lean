import Mathlib.Data.List.Basic
import ShaderAssist.Proofs.Match.Outcomes

/-!
# Matching on the rest of a text

What stands before an offset has no part in what is matched from there on. A document that is cut at the
offset gives the same match, with the same events, and every offset is less by the length of what was cut off
(`matchItem_append`).

The two documents are compared slice by slice (`Matcher.Suffix`). Each function of the matcher commutes with
moving offsets on (`Match.shift`, `Traced.shift`) if the attempts it makes do (`Matcher.Shifts`). The loops ask
for distances only, from the cursor to the end of a match and to the end of the text, and both documents have
the same ones. Lines have other numbers in the two documents, but what is left of a line is the same, and so a
line that is looked up by its number is skipped to the same place.
-/

namespace ShaderAssist

/-! ### Moving offsets on -/

mutual

/-- A match with the offsets of all its nodes moved on by `k`. -/
def Match.shift (k : Nat) : Match → Match
  | .node info children =>
    .node { info with start := info.start + k, stop := info.stop + k } (shiftAll k children)

/-- Some matches with all offsets moved on by `k`. -/
def shiftAll (k : Nat) : List Match → List Match
  | [] => []
  | m :: ms => m.shift k :: shiftAll k ms

end

/-- An event with its offset moved on by `k`. -/
def Event.shift (k : Nat) : Event → Event
  | compiled name items patterns scopes => compiled name items patterns scopes
  | invalidOffset item offset => invalidOffset item (offset + k)
  | depthLimit limit offset => depthLimit limit (offset + k)
  | unterminatedScope offset => unterminatedScope (offset + k)
  | completed position count => completed position count

/-- A computation with its value changed, and the offsets of its events moved on by `k`. -/
def Traced.shift {α β : Type} (k : Nat) (f : α → β) (t : Traced α) : Traced β :=
  ⟨f t.value, t.events.map (Event.shift k)⟩

theorem shiftAll_eq_map (k : Nat) : ∀ ms : List Match, shiftAll k ms = ms.map (Match.shift k)
  | [] => by rw [shiftAll, List.map_nil]
  | m :: ms => by rw [shiftAll, shiftAll_eq_map k ms, List.map_cons]

namespace Match

variable (k : Nat) (r : Match) (rs : List Match)

theorem shift_node (info : MatchInfo) : (node info rs).shift k =
    node { info with start := info.start + k, stop := info.stop + k } (rs.map (shift k)) := by
  rw [shift, shiftAll_eq_map]

@[simp] theorem start_shift : (r.shift k).start = r.start + k := by cases r; rw [shift]; rfl

@[simp] theorem stop_shift : (r.shift k).stop = r.stop + k := by cases r; rw [shift]; rfl

@[simp] theorem isMatched_shift : (r.shift k).isMatched = r.isMatched := by cases r; rw [shift]; rfl

@[simp] theorem shift_leaf (id : ItemId) (kind : MatchKind) (a b : Nat) :
    (leaf id kind a b).shift k = leaf id kind (a + k) (b + k) :=
  shift_node k [] _

@[simp] theorem shift_withOrigin (origin : Origin) :
    (r.withOrigin origin).shift k = (r.shift k).withOrigin origin := by
  cases r
  simp only [withOrigin, shift_node]

@[simp] theorem shift_withName (name : String) :
    (r.withName name).shift k = (r.shift k).withName name := by
  cases r
  simp only [withName, shift_node]

@[simp] theorem shift_withRange (a b : Nat) :
    (r.withRange a b).shift k = (r.shift k).withRange (a + k) (b + k) := by
  cases r
  simp only [withRange, shift_node]

theorem furthest_shift : ∀ (rs : List Match) (n : Nat),
    furthest (n + k) (rs.map (shift k)) = furthest n rs + k
  | [], _ => rfl
  | r :: rs, n => by
    have hmax : max (n + k) (r.shift k).stop = max n r.stop + k := by
      rw [stop_shift]
      omega
    change furthest (max (n + k) (r.shift k).stop) (rs.map (shift k)) = furthest (max n r.stop) rs + k
    rw [hmax, furthest_shift rs]

theorem shift_ofChildren (item : Option ItemId) (kind : MatchKind) (o : Nat) :
    (ofChildren item kind o rs).shift k = ofChildren item kind (o + k) (rs.map (shift k)) := by
  have hstart : ∀ a : Nat, (node ⟨item, .item, kind, a, furthest a rs, none⟩ rs).shift k =
      node ⟨item, .item, kind, a + k, furthest (a + k) (rs.map (shift k)), none⟩ (rs.map (shift k)) := by
    intro a
    rw [shift_node, furthest_shift]
  -- a node that matched starts with its first child, and every other one where it was tried
  cases kind with
  | matched =>
    cases rs with
    | nil => exact hstart o
    | cons r rs =>
      refine (hstart r.start).trans ?_
      rw [← start_shift]
      rfl
  | unmatched => exact hstart o
  | unmatchedPattern => exact hstart o
  | unmatchedText => exact hstart o

end Match

namespace Traced

variable {α β γ δ : Type} {k : Nat}

@[simp] theorem shift_pure (f : α → β) (a : α) : (pure a : Traced α).shift k f = pure (f a) := rfl

/-- One computation after another one is moved on as they are. -/
theorem shift_bind_value {f : α → β} {f' : γ → δ} {t : Traced α} {next : α → Traced γ} {next' : β → Traced δ}
    (h : (next t.value).shift k f' = next' (f t.value)) : (t >>= next).shift k f' = t.shift k f >>= next' := by
  have hvalue : ((next t.value).shift k f').value = (next' (f t.value)).value := by rw [h]
  have hevents : ((next t.value).shift k f').events = (next' (f t.value)).events := by rw [h]
  change Traced.mk ((next t.value).shift k f').value
    ((t.events ++ (next t.value).events).map (Event.shift k)) = _
  rw [hvalue, List.map_append]
  change Traced.mk _ (_ ++ ((next t.value).shift k f').events) = _
  rw [hevents]
  rfl

theorem shift_bind {f : α → β} {f' : γ → δ} {t : Traced α} {next : α → Traced γ} {next' : β → Traced δ}
    (h : ∀ a, (next a).shift k f' = next' (f a)) : (t >>= next).shift k f' = t.shift k f >>= next' :=
  shift_bind_value (h t.value)

end Traced

/-! ### The rest of a document -/

namespace Document

/-- The slices of the rest of a text are slices of the text. -/
theorem sliceAt_append (front rest : List Char) (p : Nat) :
    (ofList (front ++ rest)).sliceAt (p + byteLength front) = (ofList rest).sliceAt p := by
  refine Option.ext fun s => ?_
  rw [sliceAt_eq_some_iff, sliceAt_eq_some_iff]
  constructor
  · rintro ⟨before, htext, hlength⟩
    change front ++ rest = before ++ s.chars at htext
    rcases List.append_eq_append_iff.mp htext with ⟨more, rfl, hrest⟩ | ⟨more, rfl, hchars⟩
    · refine ⟨more, hrest, ?_⟩
      rw [byteLength_append] at hlength
      omega
    · -- the slice would start before the rest, so it is the whole rest
      rw [byteLength_append] at hlength
      have hmore : byteLength more = 0 := by omega
      have hp : p = 0 := by omega
      rw [byteLength_eq_zero] at hmore
      rw [hmore, List.nil_append] at hchars
      exact ⟨[], hchars.symm, hp.symm⟩
  · rintro ⟨before, htext, rfl⟩
    change rest = before ++ s.chars at htext
    refine ⟨front ++ before, ?_, ?_⟩
    · change front ++ rest = front ++ before ++ s.chars
      rw [htext, List.append_assoc]
    · rw [byteLength_append, Nat.add_comm]

theorem size_append (front rest : List Char) :
    (ofList (front ++ rest)).size = (ofList rest).size + byteLength front := by
  rw [size_eq, size_eq]
  change byteLength (front ++ rest) = byteLength rest + byteLength front
  rw [byteLength_append, Nat.add_comm]

end Document

namespace Matcher

/-- The document of `part` is what the document of `whole` holds from the offset `k` on. -/
structure Suffix (whole part : Matcher) (k : Nat) : Prop where
  grammar : whole.grammar = part.grammar
  depthLimit : whole.depthLimit = part.depthLimit
  sliceAt : ∀ p, whole.document.sliceAt (p + k) = part.document.sliceAt p
  size : whole.document.size = part.document.size + k

theorem suffix_append (g : CompiledGrammar) (front rest : List Char) (limit : Nat) :
    Suffix ⟨g, .ofList (front ++ rest), limit⟩ ⟨g, .ofList rest, limit⟩ (byteLength front) :=
  ⟨rfl, rfl, Document.sliceAt_append front rest, Document.size_append front rest⟩

/-- Attempts at offsets that are `k` further on have the same results, moved on by `k`. -/
def Shifts (k : Nat) (attempt attempt' : Attempt) : Prop :=
  ∀ id p, attempt id (p + k) = (attempt' id p).shift k (Match.shift k)

/-- The result of some items with its offsets moved on, be it one match or all the attempts. -/
def shiftFound (k : Nat) : Except (List Match) Match → Except (List Match) Match
  | .ok r => .ok (r.shift k)
  | .error attempts => .error (attempts.map (Match.shift k))

/-- Results with their offsets moved on. -/
abbrev shiftResults (k : Nat) (r : List Match × Bool) : List Match × Bool :=
  (r.1.map (Match.shift k), r.2)

variable {whole part : Matcher} {k : Nat} {attempt attempt' : Attempt}

/-! ### Words -/

section Words
variable (hs : Suffix whole part k) (id : ItemId) (crossLine : Bool) (p : Nat)
include hs

theorem Suffix.skip : whole.skip (p + k) crossLine = part.skip p crossLine + k := by
  unfold Matcher.skip
  rw [hs.sliceAt]
  cases part.document.sliceAt p with
  | none => rfl
  | some s =>
    dsimp only
    omega

theorem Suffix.unmatchedLeaf :
    whole.unmatchedLeaf id (p + k) = (part.unmatchedLeaf id p).shift k := by
  unfold Matcher.unmatchedLeaf
  rw [hs.skip, Match.shift_leaf]

theorem Suffix.matchBlank :
    whole.matchBlank id crossLine (p + k) = (part.matchBlank id crossLine p).shift k := by
  unfold Matcher.matchBlank
  dsimp only
  rw [hs.skip]
  by_cases h : p < part.skip p crossLine
  · rw [if_pos (by omega), if_pos h, Match.shift_leaf]
  · rw [if_neg (by omega), if_neg h, Match.shift_leaf]

theorem Suffix.matchWord (length? : Slice → Option Nat) :
    whole.matchWord id length? crossLine (p + k) =
      (part.matchWord id length? crossLine p).shift k := by
  unfold Matcher.matchWord
  dsimp only
  rw [hs.skip, hs.sliceAt]
  cases (part.document.sliceAt (part.skip p crossLine)).bind length? with
  | none => exact hs.unmatchedLeaf id p
  | some length =>
    dsimp only
    rw [Match.shift_leaf, Nat.add_right_comm]

end Words

/-! ### Sequences and alternatives -/

/-- The place behind the last of some matches. -/
theorem getLast?_map_shift (rs : List Match) (p : Nat) :
    ((rs.map (Match.shift k)).getLast?.map Match.stop).getD (p + k) =
      (rs.getLast?.map Match.stop).getD p + k := by
  rw [List.getLast?_map]
  cases rs.getLast? with
  | none => rfl
  | some r => exact Match.stop_shift k r

section Attempts
variable (ha : Shifts k attempt attempt')
include ha

theorem Shifts.matchMany (size : Nat) (item : ItemId) (p : Nat) :
    Matcher.matchMany attempt (size + k) item (p + k) =
      (Matcher.matchMany attempt' size item p).shift k (List.map (Match.shift k)) := by
  -- the distance to the end of the text is the same in both, and it decreases
  induction h : size - p using Nat.strong_induction_on generalizing p with
  | _ n ih =>
  subst h
  rw [Matcher.matchMany.eq_1 attempt, Matcher.matchMany.eq_1 attempt', ha]
  refine (Traced.shift_bind fun first => ?_).symm
  rw [Match.isMatched_shift, Match.stop_shift]
  by_cases hm : first.isMatched
  · have hnot : ¬ (!first.isMatched) = true := by simp [hm]
    rw [if_neg hnot, if_neg hnot]
    by_cases hlt : p < first.stop ∧ first.stop ≤ size
    · have hlt' : p + k < first.stop + k ∧ first.stop + k ≤ size + k := by omega
      rw [if_pos hlt, if_pos hlt', ih _ (by omega) _ rfl]
      exact Traced.shift_bind fun _ => rfl
    · have hlt' : ¬ (p + k < first.stop + k ∧ first.stop + k ≤ size + k) := by omega
      rw [if_neg hlt, if_neg hlt']
      rfl
  · have hnot : (!first.isMatched) = true := by simp [hm]
    rw [if_pos hnot, if_pos hnot]
    rfl

theorem Shifts.matchElements (size : Nat) : ∀ (es : List SequenceElement) (p : Nat),
    Matcher.matchElements attempt (size + k) es (p + k) =
      (Matcher.matchElements attempt' size es p).shift k (shiftResults k)
  | [], p => rfl
  | ⟨item, .one⟩ :: es, p => by
    rw [Matcher.matchElements, Matcher.matchElements, ha]
    refine (Traced.shift_bind fun first => ?_).symm
    rw [Match.isMatched_shift, Match.stop_shift, Shifts.matchElements size es first.stop]
    split_ifs
    · exact Traced.shift_bind fun _ => rfl
    · rfl
  | ⟨item, .optional⟩ :: es, p => by
    rw [Matcher.matchElements, Matcher.matchElements, ha]
    refine (Traced.shift_bind fun first => ?_).symm
    rw [Match.isMatched_shift, Match.stop_shift, Shifts.matchElements size es first.stop,
      Shifts.matchElements size es p]
    split_ifs
    · exact Traced.shift_bind fun _ => rfl
    · rfl
  | ⟨item, .many⟩ :: es, p => by
    rw [Matcher.matchElements, Matcher.matchElements, ha.matchMany]
    refine (Traced.shift_bind fun first => ?_).symm
    rw [getLast?_map_shift, Shifts.matchElements size es _]
    refine Traced.shift_bind fun rest => ?_
    simp only [Traced.shift_pure, shiftResults, List.map_append]

theorem Shifts.matchSequence (size : Nat) (id : ItemId) (es : List SequenceElement) (p : Nat) :
    Matcher.matchSequence attempt (size + k) id es (p + k) =
      (Matcher.matchSequence attempt' size id es p).shift k (Match.shift k) := by
  unfold Matcher.matchSequence
  rw [ha.matchElements]
  refine (Traced.shift_bind fun r => ?_).symm
  obtain ⟨children, complete⟩ := r
  simp only [List.isEmpty_map]
  split_ifs
  · rw [Traced.shift_pure, Match.shift_leaf]
  · rw [Traced.shift_pure, Match.shift_ofChildren]
  · rw [Traced.shift_pure, Match.shift_ofChildren]

/-- The first acceptable result is the same one if both documents accept the same results. -/
theorem Shifts.firstAccepted {accept accept' : Match → Bool}
    (haccept : ∀ r, accept (r.shift k) = accept' r) (p : Nat) : ∀ items : List ItemId,
    Matcher.firstAccepted accept attempt (p + k) items =
      (Matcher.firstAccepted accept' attempt' p items).shift k (shiftFound k)
  | [] => rfl
  | item :: items => by
    rw [Matcher.firstAccepted, Matcher.firstAccepted, ha, Shifts.firstAccepted haccept p items]
    refine (Traced.shift_bind fun result => ?_).symm
    rw [haccept]
    split_ifs
    · rfl
    · refine Traced.shift_bind fun found => ?_
      cases found with
      | ok later => rfl
      | error attempts => rfl

theorem Shifts.matchAlternation (id : ItemId) (pattern : PatternId) (items : List ItemId) (p : Nat) :
    Matcher.matchAlternation attempt id pattern items (p + k) =
      (Matcher.matchAlternation attempt' id pattern items p).shift k (Match.shift k) := by
  unfold Matcher.matchAlternation
  rw [ha.firstAccepted (Match.isMatched_shift k)]
  refine (Traced.shift_bind fun found => ?_).symm
  cases found with
  | ok alternative => simp only [Traced.shift_pure, shiftFound, Match.shift_withOrigin,
      Match.shift_ofChildren, List.map_cons, List.map_nil]
  | error attempts => simp only [Traced.shift_pure, shiftFound, Match.shift_withOrigin,
      Match.shift_ofChildren]

theorem Shifts.matchBody (body : List ItemId) (p : Nat) :
    Matcher.matchBody attempt body (p + k) =
      (Matcher.matchBody attempt' body p).shift k (shiftFound k) := by
  refine ha.firstAccepted (fun r => ?_) p body
  have hlt : p + k < r.stop + k ↔ p < r.stop := by omega
  simp only [Match.isMatched_shift, Match.stop_shift, hlt]

end Attempts

/-! ### Lines, scopes and documents -/

theorem Suffix.restAt (hs : Suffix whole part k) {p : Nat} {cs : List Char} (h : part.document.RestAt p cs) :
    whole.document.RestAt (p + k) cs := by
  have hslice := hs.sliceAt p
  rw [h.sliceAt, Document.sliceAt_eq_some_iff] at hslice
  exact hslice

/-- The line that is skipped is the same one, if it is found from a boundary. -/
theorem Suffix.skipLine (hs : Suffix whole part k) {p : Nat} {attempts : List Match}
    (hfar : part.document.IsBoundary (Match.furthest p attempts)) :
    whole.skipLine (p + k) (attempts.map (Match.shift k)) =
      ((part.skipLine p attempts).1.shift k, (part.skipLine p attempts).2.map (· + k)) := by
  obtain ⟨cs, hcs⟩ := hfar
  have hcs' : whole.document.RestAt (Match.furthest (p + k) (attempts.map (Match.shift k))) cs := by
    rw [Match.furthest_shift]
    exact hs.restAt hcs
  rw [skipLine_eq hcs, skipLine_eq hcs', Match.furthest_shift, Match.shift_withRange, Match.shift_ofChildren]
  rcases Document.restOfLine cs with ⟨line, ended⟩
  have hstop : Match.furthest p attempts + k + byteLength (Document.dropReturn line) =
      Match.furthest p attempts + byteLength (Document.dropReturn line) + k := by omega
  have hnext : Match.furthest p attempts + k + byteLength line + 1 =
      Match.furthest p attempts + byteLength line + 1 + k := by omega
  dsimp only
  rw [hstop, hnext]
  cases ended <;> rfl

section Content
variable (hs : Suffix whole part k) (ha : Shifts k attempt attempt') (hsound : part.Sound attempt')
include hs ha hsound

theorem Suffix.matchRegion (closing : ItemId) (body : List ItemId) {p : Nat} (hp : part.document.IsBoundary p) :
    whole.matchRegion attempt closing body (p + k) =
      (part.matchRegion attempt' closing body p).shift k (shiftResults k) := by
  induction h : part.document.size - p using Nat.strong_induction_on generalizing p with
  | _ n ih =>
  subst h
  have hc := passes_skip hp true
  rw [Matcher.matchRegion.eq_1 whole, Matcher.matchRegion.eq_1 part]
  dsimp only
  rw [hs.skip, ha.matchBody, hs.size]
  refine (Traced.shift_bind_value ?_).symm
  rw [matchBody_eq]
  rcases firstAccepted_cases (advances (part.skip p true)) attempt' (part.skip p true) body with
    ⟨result, hfirst, hvalue⟩ | ⟨-, hvalue⟩
  · obtain ⟨hlt, hle, hplaced⟩ := hfirst.advances hsound hc
    rw [hvalue]
    dsimp only [shiftFound]
    rw [Match.stop_shift, if_pos ⟨hlt, hle⟩, if_pos (by omega), ih _ (by omega) hplaced.stop rfl]
    exact Traced.shift_bind fun _ => rfl
  · rw [hvalue]
    dsimp only [shiftFound]
    rw [ha, hs.skipLine (hsound.isBoundary_furthest hc.isBoundary_right body)]
    refine Traced.shift_bind fun last => ?_
    rw [Match.isMatched_shift]
    split_ifs
    · rfl
    rcases hskip : part.skipLine (part.skip p true) (tries attempt' body (part.skip p true)) with ⟨line, _ | next⟩
    · rfl
    · have hline := hsound.skippedLine hc.isBoundary_right hskip
      obtain ⟨hlt, hle⟩ := hline.advances hc
      dsimp only [Option.map_some]
      rw [if_pos ⟨hlt, hle⟩, if_pos (by omega), ih _ (by omega) (hline.leads next rfl).2.isBoundary_right rfl]
      exact Traced.shift_bind fun _ => rfl

theorem Suffix.matchLines (body : List ItemId) {p : Nat} (hp : part.document.IsBoundary p) :
    whole.matchLines attempt body (p + k) =
      (part.matchLines attempt' body p).shift k (shiftResults k) := by
  induction h : part.document.size - p using Nat.strong_induction_on generalizing p with
  | _ n ih =>
  subst h
  have hc := passes_skip hp true
  rw [Matcher.matchLines.eq_1 whole, Matcher.matchLines.eq_1 part]
  dsimp only
  rw [hs.skip, hs.size]
  by_cases hend : part.document.size ≤ part.skip p true
  · rw [if_pos hend, if_pos (by omega)]
    rfl
  rw [if_neg hend, if_neg (by omega), ha.matchBody]
  refine (Traced.shift_bind_value ?_).symm
  rw [matchBody_eq]
  rcases firstAccepted_cases (advances (part.skip p true)) attempt' (part.skip p true) body with
    ⟨result, hfirst, hvalue⟩ | ⟨-, hvalue⟩
  · obtain ⟨hlt, hle, hplaced⟩ := hfirst.advances hsound hc
    rw [hvalue]
    dsimp only [shiftFound]
    rw [Match.stop_shift, if_pos ⟨hlt, hle⟩, if_pos (by omega), ih _ (by omega) hplaced.stop rfl]
    exact Traced.shift_bind fun _ => rfl
  · rw [hvalue]
    dsimp only [shiftFound]
    rw [hs.skipLine (hsound.isBoundary_furthest hc.isBoundary_right body)]
    rcases hskip : part.skipLine (part.skip p true) (tries attempt' body (part.skip p true)) with ⟨line, _ | next⟩
    · rfl
    · have hline := hsound.skippedLine hc.isBoundary_right hskip
      obtain ⟨hlt, hle⟩ := hline.advances hc
      dsimp only [Option.map_some]
      rw [if_pos ⟨hlt, hle⟩, if_pos (by omega), ih _ (by omega) (hline.leads next rfl).2.isBoundary_right rfl]
      exact Traced.shift_bind fun _ => rfl

theorem Suffix.matchScope (id : ItemId) (scope : ScopeId) (opening closing : ItemId)
    (body : List ItemId) {p : Nat} (hp : part.document.IsBoundary p) :
    whole.matchScope attempt id scope opening closing body (p + k) =
      (part.matchScope attempt' id scope opening closing body p).shift k (Match.shift k) := by
  unfold Matcher.matchScope
  rw [hs.skip, ha]
  refine (Traced.shift_bind_value ?_).symm
  have hfirst := hsound opening _ (passes_skip hp true).isBoundary_right
  rw [Match.isMatched_shift, Match.stop_shift, hs.matchRegion ha hsound closing body hfirst.stop]
  generalize (attempt' opening (part.skip p true)).value = first
  split_ifs
  · simp only [Traced.shift_pure, Match.shift_withOrigin, Match.shift_ofChildren, List.map_cons,
      List.map_nil]
  · refine Traced.shift_bind fun r => ?_
    obtain ⟨rest, closed⟩ := r
    have hnode (kind : MatchKind) :
        ((Match.ofChildren (some id) kind p (first :: rest)).withOrigin (.scope scope)).shift k =
          (Match.ofChildren (some id) kind (p + k)
            (first.shift k :: rest.map (Match.shift k))).withOrigin (.scope scope) := by
      rw [Match.shift_withOrigin, Match.shift_ofChildren, List.map_cons]
    cases closed with
    | true => exact congrArg pure (hnode .matched)
    | false =>
      -- the scope has no end, which is an event at the offset where it was tried
      exact congrArg (fun r => Traced.mk r [Event.unterminatedScope (p + k)]) (hnode .unmatched)

theorem Suffix.matchGrammar (id : ItemId) (body : List ItemId) {p : Nat} (hp : part.document.IsBoundary p) :
    whole.matchGrammar attempt id body (p + k) =
      (part.matchGrammar attempt' id body p).shift k (Match.shift k) := by
  unfold Matcher.matchGrammar
  rw [hs.matchLines ha hsound body hp]
  refine (Traced.shift_bind fun r => ?_).symm
  obtain ⟨children, complete⟩ := r
  simp only [Traced.shift_pure, Match.shift_withOrigin, Match.shift_withRange, Match.shift_ofChildren,
    hs.size]

/-- **One item** is matched the same way on the rest of a document. -/
theorem Suffix.matchStep (id : ItemId) (item : Item) {p : Nat} (hp : part.document.IsBoundary p) :
    whole.matchStep attempt id item (p + k) =
      (part.matchStep attempt' id item p).shift k (Match.shift k) := by
  cases item with
  | blank crossLine => exact congrArg pure (hs.matchBlank id crossLine p)
  | text keyword crossLine => exact congrArg pure (hs.matchWord id crossLine p _)
  | token _ _ program crossLine => exact congrArg pure (hs.matchWord id crossLine p _)
  | sequence elements =>
    rw [Matcher.matchStep, hs.size]
    exact ha.matchSequence _ id elements p
  | alternation pattern alternatives => exact ha.matchAlternation id pattern alternatives p
  | named name inner =>
    simp only [Matcher.matchStep]
    rw [ha]
    exact (Traced.shift_bind fun r => congrArg pure (Match.shift_withName k r name)).symm
  | scope scope opening closing body => exact hs.matchScope ha hsound id scope opening closing body hp
  | grammar body => exact hs.matchGrammar ha hsound id body hp

end Content

/-! ### Items -/

/-- Where no character starts nothing is tried in either document. -/
theorem Suffix.matchAt_outside (hs : Suffix whole part k) {p : Nat}
    (h : (part.document.sliceAt p).isNone) (depth : Nat) (id : ItemId) :
    whole.matchAt depth id (p + k) = (part.matchAt depth id p).shift k (Match.shift k) := by
  have h' : (whole.document.sliceAt (p + k)).isNone := by
    rw [hs.sliceAt]
    exact h
  have hmin : min (p + k) whole.document.size = min p part.document.size + k := by
    rw [hs.size]
    omega
  unfold matchAt
  rw [if_pos h', if_pos h]
  dsimp only
  rw [hmin, ← Match.shift_leaf]
  rfl

/-- **At every depth** items are matched the same way on the rest of a document. -/
theorem Suffix.shifts_matchAt (hs : Suffix whole part k) :
    ∀ depth, Shifts k (whole.matchAt depth) (part.matchAt depth)
  | depth, id, p => by
    by_cases hp : part.document.IsBoundary p
    case neg => exact hs.matchAt_outside (Document.isNone_sliceAt hp) depth id
    have hnone : ¬ (part.document.sliceAt p).isNone := ne_true_of_eq_false hp.isNone_sliceAt
    have hnone' : ¬ (whole.document.sliceAt (p + k)).isNone := by
      rw [hs.sliceAt]
      exact hnone
    have hleaf := Match.shift_leaf k id .unmatched p p
    unfold matchAt
    rw [if_neg hnone, if_neg hnone']
    cases depth with
    | zero =>
      dsimp only
      rw [← hleaf, hs.depthLimit]
      rfl
    | succ depth =>
      dsimp only
      rw [hs.grammar]
      cases part.grammar.item? id with
      | none => exact congrArg pure hleaf.symm
      | some item => exact hs.matchStep (hs.shifts_matchAt depth) (sound_matchAt part depth) id item hp

end Matcher

/-- **Matching depends only on the text from its offset on.** An item that is tried where `rest` starts has the
match that it has at the start of `rest` alone, and the same events, with all offsets moved on by the length of
what stands before. -/
theorem matchItem_append (g : CompiledGrammar) (front rest : List Char) (limit : Nat) (id : ItemId) :
    Matcher.matchItem ⟨g, .ofList (front ++ rest), limit⟩ id (byteLength front) =
      (Matcher.matchItem ⟨g, .ofList rest, limit⟩ id 0).shift (byteLength front)
        (Match.shift (byteLength front)) := by
  have h := (Matcher.suffix_append g front rest limit).shifts_matchAt limit id 0
  rw [Nat.zero_add] at h
  exact h

end ShaderAssist

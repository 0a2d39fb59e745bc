import Mathlib.Data.List.Chain
import ShaderAssist.Proofs.Pattern.Notation

/-!
# Reading is the inverse of the notation

The reader accepts exactly the written forms of elements and answers with the elements. What it has read of a
sequence `es` from a place in the middle of another one is `extend done word es`: a word goes on with the word
before it, and space after space does not count. One direction follows the written form
(`readFrom_append`), the other one the steps of the reader (`exists_sequence_of_readFrom`), where `Finishes`
says what is left of the text until all brackets are closed.
-/

namespace ShaderAssist

namespace Pattern

/-! ### Names and regular expressions -/

theorem map_eq_ok {x : Except PatternError (List Char × List Char)} {a t rest : List Char}
    (h : (x.map fun r => (a ++ r.1, r.2)) = .ok (t, rest)) : ∃ u, x = .ok (u, rest) ∧ t = a ++ u := by
  rcases x with e | ⟨u, rest'⟩
  · cases h
  · obtain ⟨rfl, rfl⟩ := Prod.mk.inj (Except.ok.inj h)
    exact ⟨u, rfl, rfl⟩

theorem readName_append {close : Char} (hclose : close ≠ '\\') {s name : List Char}
    (h : SpellsName close s name) (rest : List Char) :
    readName close (s ++ close :: rest) = .ok (name, rest) := by
  induction h with
  | nil =>
    rw [List.nil_append, readName.eq_4 _ _ _ (fun h _ => hclose h) (fun _ _ h _ => hclose h),
      if_pos rfl]
  | @plain c s t hc h ih =>
    have hne : c ≠ '\\' ∧ c ≠ close := by simpa using hc
    rw [List.cons_append, readName.eq_4 _ _ _ (fun h _ => hne.1 h) (fun _ _ h _ => hne.1 h),
      if_neg hne.2, ih]
    rfl
  | escaped h ih =>
    rw [List.cons_append, List.cons_append, readName.eq_3, ih]
    rfl

theorem exists_name_of_readName {close : Char} {cs name rest : List Char}
    (h : readName close cs = .ok (name, rest)) :
    ∃ s, cs = s ++ close :: rest ∧ SpellsName close s name := by
  fun_induction readName close cs generalizing name with
  | case1 => cases h
  | case2 => cases h
  | case3 c cs ih =>
    obtain ⟨u, hu, rfl⟩ := map_eq_ok h (a := [c])
    obtain ⟨s, rfl, hs⟩ := ih hu
    exact ⟨'\\' :: c :: s, rfl, .escaped hs⟩
  | case4 cs =>
    obtain ⟨rfl, rfl⟩ := Prod.mk.inj (Except.ok.inj h)
    exact ⟨[], rfl, .nil⟩
  | case5 c cs hend hescape hc ih =>
    obtain ⟨u, hu, rfl⟩ := map_eq_ok h (a := [c])
    obtain ⟨s, rfl, hs⟩ := ih hu
    have hne : c ≠ '\\' := fun he => hescape _ _ he (List.cons_head_tail (by simp)).symm
    exact ⟨c :: s, rfl, .plain (by simp [hne, hc]) hs⟩

theorem readRegex_append {s source : List Char} (h : SpellsRegex s source) (rest : List Char) :
    readRegex (s ++ '/' :: rest) = .ok (source, rest) := by
  induction h with
  | nil => rw [List.nil_append, readRegex.eq_5]
  | @plain c s t hc h ih =>
    have hne : c ≠ '\\' ∧ c ≠ '/' := by simpa using hc
    rw [List.cons_append, readRegex.eq_6 _ _ (fun h _ => hne.1 h) (fun _ h _ => hne.1 h)
      (fun _ _ h _ => hne.1 h) (fun h => hne.2 h), ih]
    rfl
  | @escaped c s t h ih =>
    rw [List.cons_append, List.cons_append]
    by_cases hc : c = '/'
    · subst hc
      rw [readRegex.eq_3, ih]
      rfl
    · rw [readRegex.eq_4 _ _ (fun h => hc h), ih, unescapeSlash, if_neg hc]
      rfl

theorem exists_regex_of_readRegex {cs source rest : List Char}
    (h : readRegex cs = .ok (source, rest)) :
    ∃ s, cs = s ++ '/' :: rest ∧ SpellsRegex s source := by
  fun_induction readRegex cs generalizing source with
  | case1 => cases h
  | case2 => cases h
  | case3 cs ih =>
    obtain ⟨u, hu, rfl⟩ := map_eq_ok h (a := ['/'])
    obtain ⟨s, rfl, hs⟩ := ih hu
    exact ⟨'\\' :: '/' :: s, rfl, .escaped hs⟩
  | case4 c cs hc ih =>
    obtain ⟨u, hu, rfl⟩ := map_eq_ok h (a := ['\\', c])
    obtain ⟨s, rfl, hs⟩ := ih hu
    have hu : unescapeSlash c = ['\\', c] := if_neg hc
    exact ⟨'\\' :: c :: s, rfl, hu ▸ .escaped hs⟩
  | case5 cs =>
    obtain ⟨rfl, rfl⟩ := Prod.mk.inj (Except.ok.inj h)
    exact ⟨[], rfl, .nil⟩
  | case6 c cs hend hslash hescape hc ih =>
    obtain ⟨u, hu, rfl⟩ := map_eq_ok h (a := [c])
    obtain ⟨s, rfl, hs⟩ := ih hu
    have hne : c ≠ '\\' := fun he => hescape _ _ he (List.cons_head_tail (by simp)).symm
    have hslash' : c ≠ '/' := hc
    exact ⟨c :: s, rfl, .plain (by simp [hne, hslash']) hs⟩

/-! ### Optional parts -/

/-- Not both elements are space. -/
def Apart (e f : Element) : Prop :=
  ¬ (e = .space ∧ f = .space)

theorem isSpace_iff {e : Element} : e.isSpace ↔ e = .space := by
  cases e <;> simp [Element.isSpace]

/-- Space is dropped once from the end, where no two spaces are next to each other. -/
theorem dropWhile_isSpace_reverse {es : List Element} (h : es.IsChain Apart) :
    es.reverse.dropWhile Element.isSpace = (trimSpace es).reverse := by
  rcases List.eq_nil_or_concat' es with rfl | ⟨es, e, rfl⟩
  · rfl
  · rw [List.reverse_append, List.reverse_singleton, List.singleton_append, List.dropWhile_cons]
    unfold trimSpace
    rw [List.getLast?_concat, Option.any_some, List.dropLast_concat]
    split_ifs with he
    · -- the element before the space is none
      rcases List.eq_nil_or_concat' es with rfl | ⟨es, f, rfl⟩
      · rfl
      · have hf : ¬ f.isSpace := by
          intro hf
          rw [List.append_assoc, List.singleton_append, List.isChain_append_cons_cons] at h
          exact h.2.1 ⟨isSpace_iff.mp hf, isSpace_iff.mp he⟩
        rw [List.reverse_append, List.reverse_singleton, List.singleton_append, List.dropWhile_cons,
          if_neg hf]
    · rw [List.reverse_append, List.reverse_singleton, List.singleton_append]

theorem stripDots?_eq_some_iff {text word : String} :
    stripDots? text = some word ↔ text = word ++ "..." := by
  unfold stripDots?
  constructor
  · intro h
    split at h
    · rename_i cs hcs
      obtain rfl := Option.some.inj h
      have : text.toList = cs.reverse ++ ['.', '.', '.'] := by
        rw [← List.reverse_reverse text.toList, hcs]
        simp
      rw [← String.ofList_toList (s := text), this, String.ofList_append]
    · cases h
  · rintro rfl
    have : (word ++ "...").toList.reverse = '.' :: '.' :: '.' :: word.toList.reverse := by
      rw [String.toList_append, List.reverse_append]
      rfl
    rw [this]
    simp

theorem isChain_of_trimSpace {es front : List Element} {e : Element} (h : es.IsChain Apart)
    (hes : trimSpace es = front ++ [e]) : front.IsChain Apart := by
  have hprefix : trimSpace es <+: es := by
    unfold trimSpace
    split_ifs
    · exact List.dropLast_prefix es
    · exact List.prefix_refl es
  rw [hes] at hprefix
  exact h.prefix ((List.prefix_append front [e]).trans hprefix)

section Closes

variable {es front : List Element} {e last : Element}

/-- A last element without three points at its end. -/
theorem closes_once_iff (hes : trimSpace es = front ++ [last])
    (hdots : ∀ word, last ≠ .text (word ++ "...")) :
    Closes es e ↔ e = .optional (front ++ [last]) false := by
  have hlast : ∀ {front' last'}, trimSpace es = front' ++ [last'] → last = last' := by
    intro front' last' h
    exact (List.append_inj' (hes.symm.trans h) rfl).2 |> List.singleton_inj.mp
  constructor
  · intro h
    cases h with
    | once => rw [hes]
    | word hbody => exact absurd (hlast hbody) (hdots _)
    | points hbody => exact absurd (hlast hbody) (hdots "")
  · rintro rfl
    rw [← hes]
    refine .once (by simp [hes]) fun word h => ?_
    rw [hes, List.getLast?_concat] at h
    exact hdots word (Option.some.inj h)

/-- A last word with three points at its end. -/
theorem closes_repeated_iff {word : String} (hes : trimSpace es = front ++ [.text (word ++ "...")]) :
    Closes es e ↔ (word = "" ∧ trimSpace front ≠ [] ∧ e = .optional (trimSpace front) true) ∨
      (word ≠ "" ∧ e = .optional (front ++ [.text word]) true) := by
  have hlast : ∀ front' word', trimSpace es = front' ++ [.text (word' ++ "...")] →
      front = front' ∧ word = word' := by
    intro front' word' h
    obtain ⟨hfront, hword⟩ := List.append_inj' (hes.symm.trans h) rfl
    have htext := Element.text.inj (List.singleton_inj.mp hword)
    refine ⟨hfront, Option.some.inj ?_⟩
    rw [← stripDots?_eq_some_iff.mpr rfl, htext]
    exact stripDots?_eq_some_iff.mpr rfl
  constructor
  · intro h
    cases h with
    | once hne hdots => exact absurd (by rw [hes, List.getLast?_concat]) (hdots word)
    | word hbody hword =>
      obtain ⟨rfl, rfl⟩ := hlast _ _ hbody
      exact Or.inr ⟨hword, rfl⟩
    | points hbody hne =>
      obtain ⟨rfl, rfl⟩ := hlast _ "" hbody
      exact Or.inl ⟨rfl, hne, rfl⟩
  · rintro (⟨rfl, hne, rfl⟩ | ⟨hword, rfl⟩)
    · exact .points hes hne
    · exact .word hes hword

/-- **Closing a bracket** makes the optional part that the elements since the bracket are. -/
theorem closeOptional_eq_ok_iff (h : es.IsChain Apart) :
    closeOptional es.reverse = .ok e ↔ Closes es e := by
  unfold closeOptional
  rw [dropWhile_isSpace_reverse h]
  rcases List.eq_nil_or_concat' (trimSpace es) with hes | ⟨front, last, hes⟩
  · rw [hes]
    constructor
    · intro he
      cases he
    · intro he
      cases he with
      | once hne => exact absurd hes hne
      | word hbody | points hbody => simp [hes] at hbody
  · have hchain := isChain_of_trimSpace h hes
    rw [hes, List.reverse_append, List.reverse_singleton, List.singleton_append]
    have hplain : (∀ word, last ≠ .text (word ++ "...")) →
        ((Except.ok (.optional (last :: front.reverse).reverse false) : Except PatternError Element)
          = .ok e ↔ Closes es e) := by
      intro hdots
      rw [closes_once_iff hes hdots, List.reverse_cons, List.reverse_reverse, Except.ok.injEq, eq_comm]
    cases last with
    | text text =>
      dsimp only
      cases hd : stripDots? text with
      | none =>
        refine hplain fun word hword => ?_
        rw [Element.text.injEq, ← stripDots?_eq_some_iff, hd] at hword
        cases hword
      | some word =>
        obtain rfl := stripDots?_eq_some_iff.mp hd
        rw [closes_repeated_iff hes]
        by_cases hword : word = ""
        · subst hword
          rw [dropWhile_isSpace_reverse hchain, List.isEmpty_reverse, List.reverse_reverse]
          by_cases hfront : trimSpace front = []
          · simp [hfront]
          · simpa [hfront] using eq_comm
        · simpa [hword] using eq_comm
    | space | reference | scope | regex | optional => exact hplain (by simp)

end Closes

/-! ### Elements after others -/

/-- An element that does not go together with its neighbours: neither a word nor space. -/
def IsWhole (e : Element) : Prop :=
  (∀ t, e ≠ .text t) ∧ e ≠ .space

theorem isWhole_reference (name : String) : IsWhole (.reference name) := ⟨fun _ => nofun, nofun⟩

theorem isWhole_scope (name : String) : IsWhole (.scope name) := ⟨fun _ => nofun, nofun⟩

theorem isWhole_regex (source : String) : IsWhole (.regex source) := ⟨fun _ => nofun, nofun⟩

theorem Closes.isWhole {body : List Element} {e : Element} (h : Closes body e) : IsWhole e := by
  cases h <;> exact ⟨fun _ => nofun, nofun⟩

/-- What the elements read so far become when the elements `es` follow. -/
def extend (done : List Element) (word : List Char) : List Element → List Element
  | [] => flush word done
  | .text t :: es => es.reverse ++ flush (t.toList.reverse ++ word) done
  | .space :: es => es.reverse ++ addSpace (flush word done)
  | e :: es => es.reverse ++ e :: flush word done

section Extend

variable {done es : List Element} {word : List Char} {e : Element} {c : Char}

@[simp]
theorem flush_nil (done : List Element) : flush [] done = done := rfl

theorem flush_of_ne_nil (h : word ≠ []) :
    flush word done = .text (String.ofList word.reverse) :: done := by
  unfold flush
  rw [if_neg (by simpa using h)]

theorem flush_toList {t : String} (h : t ≠ "") : flush t.toList.reverse done = .text t :: done := by
  rw [flush_of_ne_nil (by simpa using h), List.reverse_reverse, String.ofList_toList]

theorem addSpace_of_head? (h : done.head? ≠ some .space) : addSpace done = .space :: done := by
  rcases done with _ | ⟨e, done⟩
  · rfl
  · cases e with
    | space => exact absurd rfl h
    | text | reference | scope | regex | optional => rfl

theorem addSpace_addSpace (done : List Element) : addSpace (addSpace done) = addSpace done := by
  rcases done with _ | ⟨e, done⟩
  · rfl
  · cases e <;> rfl

theorem extend_cons (he : IsWhole e) :
    extend done word (e :: es) = es.reverse ++ e :: flush word done := by
  cases e with
  | text t => exact absurd rfl (he.1 t)
  | space => exact absurd rfl he.2
  | reference | scope | regex | optional => rfl

/-- **Elements that do not go together** with what is before them: no word follows a word, and no space
follows space. -/
theorem extend_eq (htext : ∀ t, es.head? = some (.text t) → word = [] ∧ t ≠ "")
    (hspace : es.head? = some .space → (flush word done).head? ≠ some .space) :
    extend done word es = es.reverse ++ flush word done := by
  rcases es with _ | ⟨e, es⟩
  · rfl
  · rw [List.reverse_cons, List.append_assoc, List.singleton_append]
    cases e with
    | text t =>
      obtain ⟨rfl, ht⟩ := htext t rfl
      rw [extend, List.append_nil, flush_toList ht, flush_nil]
    | space => rw [extend, addSpace_of_head? (hspace rfl)]
    | reference | scope | regex | optional => rfl

end Extend

namespace Sequence

variable {s : List Char} {es : List Element}

theorem text_ne_empty (h : Sequence s es) {t : String} (ht : es.head? = some (.text t)) : t ≠ "" := by
  cases h with
  | text hs hword =>
    obtain rfl := Element.text.inj (Option.some.inj ht)
    simpa using hword
  | optional hs he =>
    obtain rfl := Option.some.inj ht
    exact absurd rfl (he.isWhole.1 t)
  | nil | space | reference | scope | regex => cases ht

theorem isChain (h : Sequence s es) : es.IsChain Apart := by
  induction h with
  | nil => exact .nil
  | space hs hne hr hmax ih =>
    refine ih.cons fun e he hspace => hmax ?_
    rw [← hspace.2]
    exact he
  | optional hs he hr ih ih' => exact ih'.cons fun _ _ hspace => he.isWhole.2 hspace.1
  | text hs hword hr hmax ih => exact ih.cons fun _ _ hspace => nomatch hspace.1
  | reference hs hname hr ih | scope hs hname hr ih | regex hs hsource hr ih =>
    exact ih.cons fun _ _ hspace => nomatch hspace.1

/-- After a whole element a sequence does not go together with anything. -/
theorem extend_cons (h : Sequence s es) {e : Element} (he : IsWhole e) (done : List Element)
    (word : List Char) : extend done word (e :: es) = extend (e :: flush word done) [] es := by
  rw [Pattern.extend_cons he, extend_eq (fun t ht => ⟨rfl, h.text_ne_empty ht⟩)]
  · rfl
  · intro _ hspace
    exact he.2 (Option.some.inj hspace)

end Sequence

/-! ### What is written is read -/

section Reading

variable (outer : List (List Element)) (done : List Element) (word : List Char)

theorem readFrom_plain {c : Char} (hc : c ∉ special) (cs : List Char) :
    readFrom outer done word (c :: cs) = readFrom outer done (c :: word) cs := by
  have hne : ∀ d ∈ special, c ≠ d := fun d hd h => hc (h ▸ hd)
  have hescape := hne '\\' (by decide)
  rw [readFrom.eq_10 _ _ _ _ _ (fun h _ => hescape h) (fun _ _ h _ => hescape h)
    (fun h => hne _ (by decide) h) (fun h => hne _ (by decide) h) (fun h => hne _ (by decide) h)
    (fun h => hne _ (by decide) h) (fun h => hne _ (by decide) h)]
  simp [hne ' ' (by decide), hne '\t' (by decide), hne '>' (by decide), hne '\x7d' (by decide)]

theorem readFrom_word {s w : List Char} (h : SpellsWord s w) (rest : List Char) :
    readFrom outer done word (s ++ rest) = readFrom outer done (w.reverse ++ word) rest := by
  induction h generalizing word with
  | nil => rfl
  | @plain c s t hc h ih =>
    rw [List.cons_append, readFrom_plain outer done word hc, ih, List.reverse_cons, List.append_assoc]
    rfl
  | @escaped c s t h ih =>
    rw [List.cons_append, List.cons_append, readFrom.eq_3, ih, itself, List.reverse_append,
      List.append_assoc]
    rfl

theorem readFrom_space {c : Char} (hc : IsSpacing c) (cs : List Char) :
    readFrom outer done word (c :: cs) = readFrom outer (addSpace (flush word done)) [] cs := by
  rcases hc with rfl | rfl <;> rw [readFrom.eq_10] <;> simp

theorem readFrom_spaces {s : List Char} (hs : ∀ c ∈ s, IsSpacing c) (hne : s ≠ []) (rest : List Char) :
    readFrom outer done word (s ++ rest) = readFrom outer (addSpace (flush word done)) [] rest := by
  induction s generalizing done word with
  | nil => exact absurd rfl hne
  | cons c s ih =>
    rw [List.cons_append, readFrom_space outer done word (hs c List.mem_cons_self)]
    rcases eq_or_ne s [] with rfl | hs'
    · rfl
    · rw [ih _ _ (fun d hd => hs d (List.mem_cons_of_mem c hd)) hs', flush_nil, addSpace_addSpace]

section Whole

variable {cs text rest : List Char}

theorem readFrom_reference (h : readName '>' cs = .ok (text, rest)) (htext : text ≠ []) :
    readFrom outer done word ('<' :: cs) =
      readFrom outer (.reference (String.ofList text) :: flush word done) [] rest := by
  rw [readFrom.eq_4]
  split <;> simp_all

theorem readFrom_scope (h : readName '\x7d' cs = .ok (text, rest)) (htext : text ≠ []) :
    readFrom outer done word ('\x7b' :: cs) =
      readFrom outer (.scope (String.ofList text) :: flush word done) [] rest := by
  rw [readFrom.eq_5]
  split <;> simp_all

theorem readFrom_regex (h : readRegex cs = .ok (text, rest)) (htext : text ≠ []) :
    readFrom outer done word ('/' :: cs) =
      readFrom outer (.regex (String.ofList text) :: flush word done) [] rest := by
  rw [readFrom.eq_6]
  split <;> simp_all

end Whole

/-- The places where a sequence ends: the end of the text and a closing bracket. -/
def AtEnd (rest : List Char) : Prop :=
  rest = [] ∨ ∃ cs, rest = ']' :: cs

theorem readFrom_atEnd {rest : List Char} (h : AtEnd rest) :
    readFrom outer done word rest = readFrom outer (flush word done) [] rest := by
  rcases h with rfl | ⟨cs, rfl⟩
  · rw [readFrom.eq_1, readFrom.eq_1, flush_nil]
  · cases outer with
    | nil => rw [readFrom.eq_8, readFrom.eq_8]
    | cons around outer => rw [readFrom.eq_9, readFrom.eq_9, flush_nil]

/-- **Reading a written form** up to its end gives its elements. -/
theorem readFrom_append {s rest : List Char} {es : List Element} (h : Sequence s es)
    (hrest : AtEnd rest) :
    readFrom outer done word (s ++ rest) = readFrom outer (extend done word es) [] rest := by
  induction h generalizing outer done word rest with
  | nil => exact readFrom_atEnd outer done word hrest
  | @text s r w es hs hword hr hmax ih =>
    rw [List.append_assoc, readFrom_word outer done word hs, ih _ _ _ hrest,
      extend_eq (fun t ht => absurd ht (hmax t))]
    · rw [extend, String.toList_ofList]
    · intro _
      rw [flush_of_ne_nil (by simp [hword])]
      exact nofun
  | @space s r es hs hne hr hmax ih =>
    rw [List.append_assoc, readFrom_spaces outer done word hs hne, ih _ _ _ hrest,
      extend_eq (fun t ht => ⟨rfl, hr.text_ne_empty ht⟩) (fun hspace => absurd hspace hmax)]
    rfl
  | @reference s r name es hs hname hr ih =>
    rw [List.cons_append, List.append_assoc, List.cons_append,
      readFrom_reference outer done word (readName_append (by decide) hs _) hname, ih _ _ _ hrest,
      hr.extend_cons (isWhole_reference _)]
  | @scope s r name es hs hname hr ih =>
    rw [List.cons_append, List.append_assoc, List.cons_append,
      readFrom_scope outer done word (readName_append (by decide) hs _) hname, ih _ _ _ hrest,
      hr.extend_cons (isWhole_scope _)]
  | @regex s r source es hs hsource hr ih =>
    rw [List.cons_append, List.append_assoc, List.cons_append,
      readFrom_regex outer done word (readRegex_append hs _) hsource, ih _ _ _ hrest,
      hr.extend_cons (isWhole_regex _)]
  | @optional s r body es e hs he hr ih ih' =>
    rw [List.cons_append, List.append_assoc, List.cons_append, readFrom.eq_7,
      ih _ _ _ (Or.inr ⟨_, rfl⟩), readFrom.eq_9, flush_nil,
      extend_eq (fun t ht => ⟨rfl, hs.text_ne_empty ht⟩) (fun _ => by simp), flush_nil,
      List.append_nil, (closeOptional_eq_ok_iff hs.isChain).mpr he, hr.extend_cons he.isWhole]
    exact ih' _ _ _ hrest

end Reading

/-! ### What is read is written -/

/-- The elements with one more letter in front. -/
def consLetter (c : Char) : List Element → List Element
  | .text t :: es => .text (String.ofList (c :: t.toList)) :: es
  | es => .text (String.ofList [c]) :: es

theorem consLetter_of_head? {c : Char} {es : List Element} (h : ∀ t, es.head? ≠ some (.text t)) :
    consLetter c es = .text (String.ofList [c]) :: es := by
  rcases es with _ | ⟨e, es⟩
  · rfl
  · cases e with
    | text t => exact absurd rfl (h t)
    | space | reference | scope | regex | optional => rfl

/-- A letter is read into the word before it. -/
theorem extend_consLetter (c : Char) (es done : List Element) (word : List Char) :
    extend done word (consLetter c es) = extend done (c :: word) es := by
  by_cases hes : ∃ t, es.head? = some (.text t)
  · obtain ⟨t, ht⟩ := hes
    obtain ⟨es, rfl⟩ := List.head?_eq_some_iff.mp ht
    rw [consLetter, extend, extend, String.toList_ofList, List.reverse_cons, List.append_assoc]
    rfl
  · rw [not_exists] at hes
    rw [consLetter_of_head? hes, extend_eq (fun t ht => absurd ht (hes t))]
    · rw [extend, String.toList_ofList]
      rfl
    · intro _
      rw [flush_of_ne_nil (List.cons_ne_nil _ _)]
      exact nofun

namespace Sequence

variable {s : List Char} {es : List Element} (h : Sequence s es)
include h

/-- A letter in front of a sequence belongs to its first word, or is a word of its own. -/
theorem consLetter {a : List Char} {c : Char}
    (ha : ∀ {s w}, SpellsWord s w → SpellsWord (a ++ s) (c :: w)) :
    Sequence (a ++ s) (consLetter c es) := by
  by_cases hes : ∃ t, es.head? = some (.text t)
  · obtain ⟨t, ht⟩ := hes
    cases h with
    | text hs hword hr hmax =>
      rw [Pattern.consLetter, ← List.append_assoc, String.toList_ofList]
      exact .text (ha hs) (List.cons_ne_nil _ _) hr hmax
    | optional hs he => exact absurd (Option.some.inj ht) (he.isWhole.1 t)
    | nil | space | reference | scope | regex => cases ht
  · rw [not_exists] at hes
    rw [consLetter_of_head? hes]
    have hword := ha .nil
    rw [List.append_nil] at hword
    exact .text hword (List.cons_ne_nil _ _) h hes

/-- A blank in front of a sequence belongs to its first space, or is a space of its own. -/
theorem consSpace {c : Char} (hc : IsSpacing c) : Sequence (c :: s) (addSpace es) := by
  by_cases hes : es.head? = some .space
  · cases h with
    | @space s r es hs hne hr hmax =>
      exact .space (s := c :: s) (List.forall_mem_cons.mpr ⟨hc, hs⟩) (List.cons_ne_nil _ _) hr hmax
    | optional hs he => exact absurd (Option.some.inj hes) he.isWhole.2
    | nil | text | reference | scope | regex => cases hes
  · rw [addSpace_of_head? hes]
    exact .space (s := [c]) (by simpa using hc) (List.cons_ne_nil _ _) h hes

theorem extend_addSpace (done : List Element) (word : List Char) :
    extend done word (addSpace es) = extend (addSpace (flush word done)) [] es := by
  by_cases hes : es.head? = some .space
  · obtain ⟨es, rfl⟩ := List.head?_eq_some_iff.mp hes
    show es.reverse ++ _ = es.reverse ++ _
    rw [flush_nil, addSpace_addSpace]
  · rw [addSpace_of_head? hes, extend_eq (fun t ht => ⟨rfl, h.text_ne_empty ht⟩) (fun h => absurd h hes)]
    rfl

end Sequence

/-- What is left of the text from the end of a sequence on: all open brackets are closed. -/
inductive Finishes : List (List Element) → List Element → List Char → List Element → Prop
  | atEnd {done : List Element} : Finishes [] done [] done.reverse
  | close {around done es result : List Element} {outer : List (List Element)} {e : Element}
    {s rest : List Char} (he : closeOptional done = .ok e) (hs : Sequence s es)
    (h : Finishes outer (extend (e :: around) [] es) rest result) :
    Finishes (around :: outer) done (']' :: (s ++ rest)) result

/-- **What the reader accepts** starts with the written form of a sequence. -/
theorem exists_sequence_of_readFrom {outer : List (List Element)} {done result : List Element}
    {word cs : List Char} (h : readFrom outer done word cs = .ok result) :
    ∃ s rest es, cs = s ++ rest ∧ Sequence s es ∧ Finishes outer (extend done word es) rest result := by
  fun_induction readFrom outer done word cs with
  | case1 outer done word hnil =>
    obtain rfl := List.isEmpty_iff.mp hnil
    obtain rfl := Except.ok.inj h
    exact ⟨[], [], [], rfl, .nil, .atEnd⟩
  | case4 outer done word c cs ih =>
    obtain ⟨s, rest, es, rfl, hs, hrest⟩ := ih h
    refine ⟨'\\' :: c :: s, rest, consLetter c es, rfl, hs.consLetter (a := ['\\', c]) .escaped, ?_⟩
    rwa [extend_consLetter]
  | case7 outer done word cs name rest hname _ hne ih =>
    obtain ⟨s, rest, es, rfl, hs, hrest⟩ := ih h
    obtain ⟨written, rfl, hwritten⟩ := exists_name_of_readName hname
    refine ⟨'<' :: (written ++ '>' :: s), rest, .reference (String.ofList name) :: es, by simp,
      .reference hwritten (by simpa using hne) hs, ?_⟩
    rwa [hs.extend_cons (isWhole_reference _)]
  | case10 outer done word cs name rest hname _ hne ih =>
    obtain ⟨s, rest, es, rfl, hs, hrest⟩ := ih h
    obtain ⟨written, rfl, hwritten⟩ := exists_name_of_readName hname
    refine ⟨'\x7b' :: (written ++ '\x7d' :: s), rest, .scope (String.ofList name) :: es, by simp,
      .scope hwritten (by simpa using hne) hs, ?_⟩
    rwa [hs.extend_cons (isWhole_scope _)]
  | case13 outer done word cs source rest hsource _ hne ih =>
    obtain ⟨s, rest, es, rfl, hs, hrest⟩ := ih h
    obtain ⟨written, rfl, hwritten⟩ := exists_regex_of_readRegex hsource
    refine ⟨'/' :: (written ++ '/' :: s), rest, .regex (String.ofList source) :: es, by simp,
      .regex hwritten (by simpa using hne) hs, ?_⟩
    rwa [hs.extend_cons (isWhole_regex _)]
  | case14 outer done word cs ih =>
    obtain ⟨body, rest, inner, rfl, hbody, hrest⟩ := ih h
    rw [extend_eq (fun t ht => ⟨rfl, hbody.text_ne_empty ht⟩) (fun _ => by simp), flush_nil,
      List.append_nil] at hrest
    cases hrest with
    | @close _ _ es _ _ e s rest he hs hrest =>
      have hcloses := (closeOptional_eq_ok_iff hbody.isChain).mp he
      refine ⟨'[' :: (body ++ ']' :: s), rest, e :: es, by simp, .optional hbody hcloses hs, ?_⟩
      rwa [hs.extend_cons hcloses.isWhole]
  | case17 done word cs around outer e he ih =>
    obtain ⟨s, rest, es, rfl, hs, hrest⟩ := ih h
    exact ⟨[], ']' :: (s ++ rest), [], rfl, .nil, .close he hs hrest⟩
  | case18 outer done word c cs _ _ _ _ _ _ _ hc ih =>
    obtain ⟨s, rest, es, rfl, hs, hrest⟩ := ih h
    refine ⟨c :: s, rest, addSpace es, rfl, hs.consSpace (by simpa [IsSpacing] using hc), ?_⟩
    rwa [hs.extend_addSpace]
  | case20 outer done word c cs hend hescape hlt hbrace hslash hopen hclose hspace hcloser ih =>
    have hne : c ≠ '\\' := by
      intro hc
      rcases hcs : cs with _ | ⟨d, ds⟩
      · exact hend hc hcs
      · exact hescape d ds hc hcs
    have hc : c ∉ special := by
      simp only [Bool.or_eq_true, decide_eq_true_eq, not_or] at hspace hcloser
      simp only [special, List.mem_cons, List.not_mem_nil, or_false, not_or]
      exact ⟨hne, hspace.1, hspace.2, hlt, hbrace, hslash, hopen, hclose, hcloser.1, hcloser.2⟩
    obtain ⟨s, rest, es, rfl, hs, hrest⟩ := ih h
    refine ⟨c :: s, rest, consLetter c es, rfl, hs.consLetter (a := [c]) (.plain hc), ?_⟩
    rwa [extend_consLetter]
  | case2 | case3 | case5 | case6 | case8 | case9 | case11 | case12 | case15 | case16 | case19 =>
    cases h

theorem readFrom_eq_ok_iff {cs : List Char} {es : List Element} :
    readFrom [] [] [] cs = .ok es ↔ Sequence cs es := by
  constructor
  · intro h
    obtain ⟨s, rest, es', rfl, hs, hrest⟩ := exists_sequence_of_readFrom h
    rw [extend_eq (fun t ht => ⟨rfl, hs.text_ne_empty ht⟩) (fun _ => by simp), flush_nil,
      List.append_nil] at hrest
    cases hrest with
    | atEnd => rwa [List.append_nil, List.reverse_reverse]
  · intro h
    have hread := readFrom_append [] [] [] h (Or.inl rfl)
    rw [List.append_nil] at hread
    rw [hread, readFrom.eq_1, extend_eq (fun t ht => ⟨rfl, h.text_ne_empty ht⟩) (fun _ => by simp)]
    simp

theorem readElements_eq_ok {source : String} {es : List Element} :
    readElements source = .ok es ↔ Denotes source es := by
  unfold Denotes
  rw [← readFrom_eq_ok_iff]
  unfold readElements
  rcases readFrom [] [] [] source.toList with e | ⟨_ | ⟨first, rest⟩⟩
  · simp
  · simp
  · constructor
    · intro h
      obtain rfl := Except.ok.inj h
      exact ⟨rfl, List.cons_ne_nil first rest⟩
    · exact And.left

/-- **Reading patterns.** The reader answers with some elements exactly for the written forms of these
elements, and with an error for all other texts. -/
theorem readElements_eq_ok_iff (source : String) :
    (∀ es, readElements source = .ok es ↔ Denotes source es) ∧
      ((∃ e, readElements source = .error e) ↔ ¬ ∃ es, Denotes source es) := by
  refine ⟨fun es => readElements_eq_ok, ?_⟩
  constructor
  · rintro ⟨e, he⟩ ⟨es, hes⟩
    rw [readElements_eq_ok.mpr hes] at he
    cases he
  · intro hnone
    cases hread : readElements source with
    | error e => exact ⟨e, rfl⟩
    | ok es => exact absurd ⟨es, readElements_eq_ok.mp hread⟩ hnone

end Pattern

end ShaderAssist

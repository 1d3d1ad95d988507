import Mathlib.Algebra.GroupWithZero.Nat

/-!
# Index Types of Fixed Size

A pair of buffers, the lanes of a vector and the planes of an image are indexed by `Fin 2` and
`Fin 4`. Their literals need that the size is not zero. The two facts are named here, so that
every definition that writes such an index uses the same ones.
-/

namespace DrmCxx.Lib

instance (priority := 2000) neZero_two : NeZero 2 := ⟨by decide⟩

instance (priority := 2000) neZero_four : NeZero 4 := ⟨by decide⟩

end DrmCxx.Lib

import Mathlib.Tactic
import Dumbos.Foundation.Bytes

/-! # What stands at a position

A file that is changed in place keeps its positions. Each element of what comes out
of a change stands at the same place in what went in, or it has been written there,
so that a law about some positions follows from what is written to them.
-/
namespace Dumbos.Foundation
variable {α : Type*} {l new old : List α} {i n o lo hi : ℕ} {c : α}

end Dumbos.Foundation

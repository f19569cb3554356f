import Mathlib.Algebra.Order.Field.Basic
import Mathlib.Algebra.Order.Field.Rat
import Mathlib.Tactic.FieldSimp
import Mathlib.Tactic.Linarith
import Mathlib.Tactic.Ring

-- A counter against the time that its counts stand for.
namespace Pace

variable {unit rate ticks frequency counts time : ℕ}

end Pace

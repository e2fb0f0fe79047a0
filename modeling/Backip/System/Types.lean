import Mathlib.Algebra.Group.Nat.Defs

/-!
# Error codes, the width of `int`, timers (`tos/types/TinyError.h`, `tos/lib/timer/Timer.nc`)
-/

set_option autoImplicit false

/-- `error_t`. -/
inductive TinyError
  | success | fail | esize | ecancel | eoff | ebusy | einval | eretry | ereserve | ealready
  | enomem | enoack
deriving DecidableEq, Repr

/-! ## The width of `int`

The platforms have an `int` of 16 or of 32 bits. What is promoted to it wraps, as far as it is
unsigned, at `modulus`. -/

inductive IntWidth
  | bits16
  | bits32
deriving DecidableEq, Repr

namespace IntWidth

def modulus : IntWidth → Nat
  | bits16 => 2 ^ 16
  | bits32 => 2 ^ 32

/-- A sum or product as the platform computes it. -/
def wrap (w : IntWidth) (n : Nat) : Nat := n % w.modulus

end IntWidth

/-! ## Timers

The state of a `Timer<TMilli>` as its user sees it: stopped, or running with the interval it was
started with. -/

inductive TimerMilli
  | stopped
  | oneShot (dt : Nat)
  | periodic (dt : Nat)
deriving DecidableEq, Repr

namespace TimerMilli

/-- `Timer.isRunning`. -/
def isRunning : TimerMilli → Bool
  | stopped => false
  | _ => true

/-- A timer that fires runs on if it is periodic. -/
def expire : TimerMilli → TimerMilli
  | periodic dt => periodic dt
  | _ => stopped

end TimerMilli

/-
What the models of the components share: the faults of the C code and the
signals of the kernel.
-/
import Mathlib.Data.Nat.Notation

namespace EvtDrivenOs

/-- What the C code leaves undefined. -/
inductive Fault
  | divByZero
  | outOfBounds
deriving DecidableEq, Repr

/-- The signals that a driver raises and a service waits for. -/
inductive Signal
  | sigint
  | sigbus
deriving DecidableEq, Repr

end EvtDrivenOs

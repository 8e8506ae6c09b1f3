/-!
# Milliseconds

Time is a free-running counter of milliseconds in 32 bits, which starts
anywhere and wraps around. Two readings are only ever compared by the time
that has elapsed between them, so a wrap changes nothing.

Spans are added and subtracted within 32 bits and stop at the ends. The two
computations that have no answer there are faults: a division by zero, and a
sum that must be exact but does not fit.

## Main definitions

* `Millis`: A reading of the counter, or a span.
* `Millis.elapsed`: From one reading to a later one.
* `Millis.plus`, `Millis.minus`: Sum and difference of spans, cut off.
* `ArithmeticFault`: A computation without an answer.
* `Millis.sum?`: Sum of spans, which must fit.
-/

namespace DoorBus

/-- A computation without an answer. -/
inductive ArithmeticFault
  /-- A division by zero. -/
  | divideByZero
  /-- A sum that does not fit. -/
  | addOverflow
  deriving DecidableEq, Repr

/-- The fault in words. -/
def ArithmeticFault.message : ArithmeticFault → String
  | divideByZero => "attempt to divide by zero"
  | addOverflow => "attempt to add with overflow"

/-- A reading of the millisecond counter, or a span of milliseconds. -/
abbrev Millis := UInt32

namespace Millis

/-- Longest span. -/
def longest : Nat := UInt32.size - 1

/-- The longest span that is not longer than this many milliseconds. -/
def ofNatCapped (count : Nat) : Millis :=
  .ofNat (min count longest)

/-- Time from one reading to a later one, across a wrap if need be. -/
def elapsed (since now : Millis) : Millis :=
  now - since

/-- Sum of two spans, cut off at the longest one. -/
def plus (a b : Millis) : Millis :=
  ofNatCapped (a.toNat + b.toNat)

/-- Difference of two spans, cut off at zero. -/
def minus (a b : Millis) : Millis :=
  .ofNat (a.toNat - b.toNat)

/-- Sum of two spans, if it fits. -/
def sum? (a b : Millis) : Except ArithmeticFault Millis :=
  if a.toNat + b.toNat ≤ longest then .ok (a + b) else .error .addOverflow

end Millis

end DoorBus

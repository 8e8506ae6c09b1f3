import DoorBus.Clock
import DoorBus.Mailbox.Basic
import DoorBus.Master.Fault

/-!
# What an Agent Runs On

An agent needs little from its surroundings: a clock, a line to write to and
read from, a way to let time pass, and a signal to the host. These operations
work on a state of their own, which the agent never looks into. So whatever
is shown of an agent over arbitrary hardware holds however the line and the
clock behave, and whatever fails.

Writing returns when the last byte is on the line and the line is free for
the answer. Reading never waits. The signal carries the mailbox as it stands,
because that is what the host finds when it wakes.

A look at the clock changes nothing. What goes on in the hardware while the
agent works is part of the operation that comes before the look: of writing,
of reading, of letting time pass. An agent that has read something looks at
the clock twice without any of these in between, and the clock may have gone
on. That is an operation by itself.

## Main definitions

* `Hardware`: The operations, over a state `σ`.
-/

namespace DoorBus

/-- The operations that an agent runs on, over a state `σ`. -/
structure Hardware (σ : Type) where
  /-- Write a whole request to the line. -/
  transmit : List UInt8 → σ → σ × Except BusFault Unit
  /-- Read what has arrived, at most so many bytes. -/
  receive : Nat → σ → σ × Except BusFault (List UInt8)
  /-- Read the clock. -/
  now : σ → Millis
  /-- What happens between two looks at the clock in a row. -/
  tick : σ → σ := id
  /-- Let time pass. -/
  pause : Millis → σ → σ
  /-- Wake the host, which finds the mailbox like this. -/
  wakeHost : Mailbox → σ → σ

end DoorBus

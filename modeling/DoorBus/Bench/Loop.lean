import DoorBus.Agent.Basic
import DoorBus.Bench.Drive

/-!
# The Bench

A drive and an agent on one bus. The bench goes round: the agent takes a
step, the drive catches up, and the clock moves on.

## Main definitions

* `Bench`: The agent with its mailbox and bus, and the drive.
* `Bench.poll`, `Bench.service`, `Bench.advance`: The parts of a round.
* `Bench.round`: A round.
-/

namespace DoorBus

/-- A drive and an agent on one bus. -/
structure Bench where
  /-- The agent, with its mailbox and the bus. -/
  node : Node Bus
  /-- The drive. -/
  drive : Drive

namespace Bench

/-- The agent takes a step. Gives what happened. -/
def poll (transceiver : Transceiver) (bench : Bench) : Bench × List Event :=
  let (node, events) := bench.node.step (transceiver.hardware Bus.circuit)
  ({ bench with node }, events)

/-- The drive catches up. -/
def service (bench : Bench) : Except ArithmeticFault Bench := do
  let (drive, bus) ← bench.drive.service bench.node.hardware
  return { node := { bench.node with hardware := bus }, drive }

/-- The clock moves on. -/
def advance (bench : Bench) (span : Millis) : Bench :=
  { bench with node := { bench.node with hardware := bench.node.hardware.advance span } }

/-- A round: the agent, the drive, the clock. -/
def round (transceiver : Transceiver) (span : Millis) (bench : Bench) :
    Except ArithmeticFault (Bench × List Event) := do
  let (bench, events) := bench.poll transceiver
  let bench ← bench.service
  return (bench.advance span, events)

end Bench

end DoorBus

import DoorBus.Agent.Basic

/-!
# Scripted Hardware

Hardware for an agent without a bus behind it. What arrives is laid out
beforehand, in one of two ways, and what the agent sends is recorded with its
time.

* A `Script` holds a single run of bytes, and can be told to fail or to be
  slow.
* A `Schedule` holds runs of bytes with the times they arrive at. A read never
  crosses from one run to the next.

## Main definitions

* `Script`, `Script.hardware`: Bytes that can be read at once.
* `Script.run`: Steps of an agent over a script.
* `Schedule`, `Schedule.hardware`: Bytes that arrive over time.
-/

namespace DoorBus

/-- What an agent sent, with the time. -/
structure Transmission where
  /-- When it was sent. -/
  time : Millis
  /-- What was sent. -/
  bytes : List UInt8
  deriving DecidableEq, Repr

/-! ## Bytes that can be read at once -/

/-- Hardware with a single run of bytes. -/
structure Script where
  /-- The clock. -/
  now : Millis := 0
  /-- Bytes to be read. -/
  incoming : List UInt8 := []
  /-- Most bytes that a read gives, if there is a limit. -/
  readLimit : Option Nat := none
  /-- Whether reads fail. -/
  failReads : Bool := false
  /-- Whether sending fails. -/
  failWrites : Bool := false
  /-- Time that sending takes. -/
  writeTime : Millis := 0
  /-- What was sent, whether that failed or not. -/
  sent : Array Transmission := #[]
  /-- Number of signals to the host. -/
  wakes : Nat := 0
  deriving DecidableEq

namespace Script

/-- Most bytes that a read of a given capacity gives. -/
def limit (script : Script) (capacity : Nat) : Nat :=
  match script.readLimit with
  | some limit => min capacity limit
  | none => capacity

/-- What an agent runs on. -/
def hardware : Hardware Script where
  transmit bytes script :=
    ({ script with
        sent := script.sent.push ⟨script.now, bytes⟩
        now := script.now + script.writeTime },
      if script.failWrites then .error .transport else .ok ())
  receive capacity script :=
    if script.failReads then
      (script, .error .transport)
    else
      ({ script with incoming := script.incoming.drop (script.limit capacity) },
        .ok (script.incoming.take (script.limit capacity)))
  now script := script.now
  pause span script := { script with now := script.now + span }
  wakeHost _ script := { script with wakes := script.wakes + 1 }

/-- A number of steps of an agent, each with a pause behind it. Gives what
    happened, with the time at which the step began. -/
def run (span : Millis) : Nat → Node Script → Node Script × List (Millis × Event)
  | 0, node => (node, [])
  | steps + 1, node =>
    let (after, events) := node.step hardware
    let (last, more) := run span steps (after.pause hardware span)
    (last, events.map (fun event => (node.hardware.now, event)) ++ more)

end Script

/-! ## Bytes that arrive over time -/

/-- Hardware with runs of bytes that arrive at given times. -/
structure Schedule where
  /-- The clock. -/
  now : Millis := 0
  /-- What is yet to be read, with the time it arrives at. -/
  arrivals : List (Millis × List UInt8) := []
  /-- What was sent. -/
  sent : Array Transmission := #[]
  /-- Number of pauses. -/
  pauses : Nat := 0
  deriving DecidableEq

namespace Schedule

/-- Read from the first run that has arrived and is not used up. -/
def readFrom (now : Millis) (capacity : Nat) :
    List (Millis × List UInt8) → List (Millis × List UInt8) × List UInt8
  | [] => ([], [])
  | (time, bytes) :: rest =>
    if time ≤ now ∧ ¬bytes.isEmpty then
      ((time, bytes.drop capacity) :: rest, bytes.take capacity)
    else
      let (rest, read) := readFrom now capacity rest
      ((time, bytes) :: rest, read)

/-- What an agent runs on. Sending works and takes no time. -/
def hardware : Hardware Schedule where
  transmit bytes schedule :=
    ({ schedule with sent := schedule.sent.push ⟨schedule.now, bytes⟩ }, .ok ())
  receive capacity schedule :=
    let (arrivals, read) := readFrom schedule.now capacity schedule.arrivals
    ({ schedule with arrivals }, .ok read)
  now schedule := schedule.now
  pause span schedule :=
    { schedule with now := schedule.now + span, pauses := schedule.pauses + 1 }
  wakeHost _ schedule := schedule

end Schedule

end DoorBus

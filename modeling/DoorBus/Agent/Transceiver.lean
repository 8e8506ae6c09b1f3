import DoorBus.Agent.Hardware
import DoorBus.Config.Line

/-!
# The Transceiver

The bus has one pair of wires for both directions. A direction line switches
the station from listening to transmitting, and must go back as soon as the
last bit is on the wire, but not before.

Some lines return from a write as soon as the bytes are in a buffer. So the
transceiver holds the direction for the time that the bytes take on the wire,
less the time that writing took, and for the turnaround on top. A write or
flush that fails is not held for, but the direction always goes back.

## Main definitions

* `Circuit`: Line, direction line, clock and signal, over a state `β`.
* `Transceiver`: The two times that the direction is held for.
* `Transceiver.hardware`: What an agent runs on.

## Theorems

* `characterTime_standard`: The time a character takes at the standard line
  settings.
-/

namespace DoorBus

/-- Line, direction line, clock and signal, over a state `β` and with errors
    `ε` of the line. -/
structure Circuit (β ε : Type) where
  /-- Write bytes to the line. -/
  write : List UInt8 → β → β × Except ε Unit
  /-- Wait until the line has sent everything. -/
  flush : β → β × Except ε Unit
  /-- Read what has arrived, at most so many bytes. -/
  read : Nat → β → β × Except ε (List UInt8)
  /-- Switch to transmit, or to listen. -/
  setDirection : Bool → β → β
  /-- Read the clock. -/
  now : β → Millis
  /-- What happens between two looks at the clock in a row. -/
  tick : β → β := id
  /-- Let time pass. -/
  delay : Millis → β → β
  /-- Signal to the host. -/
  wake : β → β

namespace Circuit

variable {β ε : Type}

/-- Write bytes to the line and wait until they are sent. -/
def send (circuit : Circuit β ε) (bytes : List UInt8) (state : β) : β × Except ε Unit :=
  match circuit.write bytes state with
  | (state, .ok ()) => circuit.flush state
  | (state, .error error) => (state, .error error)

/-- The same circuit with nobody to wake. -/
def withoutWake (circuit : Circuit β ε) : Circuit β ε :=
  { circuit with wake := id }

end Circuit

/-- The times that the direction is held for. -/
structure Transceiver where
  /-- Time behind the last byte. -/
  turnaround : Millis
  /-- Microseconds that a character takes. -/
  characterTime : UInt32
  deriving DecidableEq, Repr

namespace Transceiver

/-- Microseconds that a character takes at the standard settings. -/
def standardCharacterTime : UInt32 := 190

theorem characterTime_standard :
    LineSettings.standard.characterTime = .ok standardCharacterTime := by
  rfl

/-- A transceiver at the standard line settings. -/
def new (turnaround : Millis) : Transceiver where
  turnaround := turnaround
  characterTime := standardCharacterTime

/-- The same transceiver at other line settings. -/
def withLine (transceiver : Transceiver) (line : LineSettings) :
    Except ArithmeticFault Transceiver :=
  line.characterTime.map fun characterTime => { transceiver with characterTime }

/-- Time that so many characters take on the wire, in milliseconds and rounded
    up. The count and the microseconds are cut off at 32 bits. -/
def wireTime (transceiver : Transceiver) (count : Nat) : Millis :=
  let micros := min (min count Millis.longest * transceiver.characterTime.toNat) Millis.longest
  .ofNat ((micros + 999) / 1000)

variable {β ε : Type}

/-- Start out listening. -/
def attach (circuit : Circuit β ε) (state : β) : β :=
  circuit.setDirection false state

/-- Time that the direction is held after a write that took a given time. -/
def holdTime (transceiver : Transceiver) (count : Nat) (taken : Millis) : Millis :=
  (transceiver.wireTime count).minus taken

/-- Write bytes to the line, with the direction switched around them. -/
def transmit (transceiver : Transceiver) (circuit : Circuit β ε) (bytes : List UInt8)
    (state : β) : β × Except BusFault Unit :=
  let state := circuit.setDirection true state
  let started := circuit.now state
  let (state, result) := circuit.send bytes state
  let hold := match result with
    | .ok () => transceiver.holdTime bytes.length (Millis.elapsed started (circuit.now state))
    | .error _ => 0
  let state := circuit.delay (hold.plus transceiver.turnaround) state
  let state := circuit.setDirection false state
  (state, result.mapError fun _ => .transport)

/-- Read what has arrived. -/
def receive (circuit : Circuit β ε) (capacity : Nat) (state : β) :
    β × Except BusFault (List UInt8) :=
  let (state, result) := circuit.read capacity state
  (state, result.mapError fun _ => .transport)

/-- What an agent runs on. -/
def hardware (transceiver : Transceiver) (circuit : Circuit β ε) : Hardware β where
  transmit := transceiver.transmit circuit
  receive := receive circuit
  now := circuit.now
  tick := circuit.tick
  pause := circuit.delay
  wakeHost _ := circuit.wake

end Transceiver

end DoorBus

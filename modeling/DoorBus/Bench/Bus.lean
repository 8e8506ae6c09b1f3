import DoorBus.Agent.Transceiver

/-!
# A Bus on the Bench

Two queues of bytes, one for each direction, the direction line of the
bridge, and a clock that only moves when it is told to. Nothing takes time on
this bus. It counts what a real one would not forgive: bytes written while the
direction line says listen.

## Main definitions

* `Bus`: The queues, the direction line and the clock.
* `Bus.write`, `Bus.read`, …: The end of the bridge.
* `Bus.circuit`: The same as a circuit for a transceiver.
* `Bus.push`, `Bus.take`: The end of the drive.
-/

namespace DoorBus

/-- Two queues of bytes with a direction line and a clock. -/
structure Bus where
  /-- The clock. -/
  now : Millis := 0
  /-- Bytes for the drive. -/
  toDrive : List UInt8 := []
  /-- Bytes for the bridge. -/
  toBridge : List UInt8 := []
  /-- Whether the direction line says transmit. -/
  transmitting : Bool := false
  /-- Number of bytes written while it said listen. -/
  strayBytes : Nat := 0
  /-- Whether writes fail. -/
  failWrites : Bool := false
  /-- Number of signals to the host. -/
  wakes : Nat := 0
  deriving DecidableEq, Repr

/-- Why the line of a bench bus could not be written. -/
inductive BusError
  /-- Writes were made to fail. -/
  | writeFailed
  deriving DecidableEq, Repr

namespace Bus

/-- Time passes. -/
def advance (bus : Bus) (span : Millis) : Bus :=
  { bus with now := bus.now + span }

/-! ## The end of the bridge -/

/-- The bridge writes. -/
def write (bytes : List UInt8) (bus : Bus) : Bus × Except BusError Unit :=
  if bus.failWrites then
    (bus, .error .writeFailed)
  else
    ({ bus with
        toDrive := bus.toDrive ++ bytes
        strayBytes := if bus.transmitting then bus.strayBytes else bus.strayBytes + bytes.length },
      .ok ())

/-- The bridge reads at most so many bytes. -/
def read (capacity : Nat) (bus : Bus) : Bus × List UInt8 :=
  ({ bus with toBridge := bus.toBridge.drop capacity }, bus.toBridge.take capacity)

/-- The bridge switches the direction line. -/
def setDirection (transmitting : Bool) (bus : Bus) : Bus :=
  { bus with transmitting }

/-- The bridge signals to the host. -/
def wake (bus : Bus) : Bus :=
  { bus with wakes := bus.wakes + 1 }

/-- The end of the bridge as a circuit. Everything written is sent at once,
    and reading cannot fail. -/
def circuit : Circuit Bus BusError where
  write := write
  flush bus := (bus, .ok ())
  read capacity bus := ((bus.read capacity).1, .ok (bus.read capacity).2)
  setDirection := setDirection
  now bus := bus.now
  delay span bus := bus.advance span
  wake := wake

/-! ## The end of the drive -/

/-- Bytes are sent to the bridge. -/
def push (bus : Bus) (bytes : List UInt8) : Bus :=
  { bus with toBridge := bus.toBridge ++ bytes }

/-- Everything that the bridge has written is taken. -/
def take (bus : Bus) : Bus × List UInt8 :=
  ({ bus with toDrive := [] }, bus.toDrive)

end Bus

end DoorBus

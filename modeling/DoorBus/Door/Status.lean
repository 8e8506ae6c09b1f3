import DoorBus.Door.StateCode
import DoorBus.Wire.Word

/-!
# Door Status

The drive describes the door in a block of nine registers. Three of them
carry a meaning here:

* register 1: target in the high byte, position in the low byte,
* register 2: state code in the high byte,
* register 6: the light, as one bit.

Positions run from 0, closed, to 200, open. What comes from the wire is cut
off there. The other registers are ignored when read and zero when written.

## Main definitions

* `DoorStatus`: Position, target, state and light.
* `DoorStatus.ofCode`: The status that goes with a state code.
* `DoorStatus.unknown`: The status before anything has been heard.
* `DoorStatus.ofRegisters`, `DoorStatus.toRegisters`: The register block.
-/

namespace DoorBus

/-- The door as a drive last described it. -/
structure DoorStatus where
  /-- Where the door is, from 0 (closed) to 200 (open). -/
  position : UInt8
  /-- Where it travels to. -/
  target : UInt8
  /-- What it is doing, coarsely. -/
  state : DoorState
  /-- The code that says what it is doing. -/
  code : StateCode
  /-- Whether the light is on. -/
  light : Bool
  deriving DecidableEq, Repr

namespace DoorStatus

/-- Position of the open end. -/
def maxPosition : UInt8 := 200

/-- Number of registers in the status block. -/
def registerCount : Nat := 9

/-- Bit of register 6 that is set while the light is on. -/
def lightBit : UInt16 := 0x0010

/-- The status before anything has been heard from the drive. -/
def unknown : DoorStatus where
  position := 0
  target := 0
  state := .unknown
  code := .other 0xFF
  light := false

/-- The status that goes with a state code. Positions are cut off at the open
    end. -/
def ofCode (position target : UInt8) (code : StateCode) (light : Bool) : DoorStatus where
  position := min position maxPosition
  target := min target maxPosition
  state := .ofCode code
  code := code
  light := light

/-- Read the status block. -/
def ofRegisters (registers : Vector UInt16 registerCount) : DoorStatus :=
  ofCode (Word.low registers[1]) (Word.high registers[1])
    (.ofByte (Word.high registers[2])) (registers[6] &&& lightBit != 0)

/-- Write the status block. The coarse state is not part of it. -/
def toRegisters (status : DoorStatus) : Vector UInt16 registerCount :=
  #v[0, Word.join status.target status.position, Word.join status.code.toByte 0,
    0, 0, 0, if status.light then lightBit else 0, 0, 0]

/-- The same status with another coarse state. -/
def withState (status : DoorStatus) (state : DoorState) : DoorStatus :=
  { status with state }

/-- How far the door is open, in percent. -/
def percentOpen (status : DoorStatus) : UInt8 :=
  status.position / 2

end DoorStatus

end DoorBus

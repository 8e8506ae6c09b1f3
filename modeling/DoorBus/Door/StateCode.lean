/-!
# State Codes

The drive reports what the door is doing as one byte. Nine values are known.
The others are kept as they are, so that a host can show them.

`StateCode` is wider than the byte: `other` may hold a byte that is known.
Such a code is not canonical. Reading a byte only gives canonical codes.

## Main definitions

* `StateCode`: The known codes, and all others.
* `StateCode.toByte`, `StateCode.ofByte`: The code on the wire.
* `DoorState`: The same in the five words that a host needs.
* `DoorState.ofCode`: From the fine to the coarse.
-/

namespace DoorBus

/-- What the drive reports the door to be doing. -/
inductive StateCode
  /-- Standing between the ends, at no named place. -/
  | stopped
  /-- Travelling to the open end. -/
  | opening
  /-- Travelling to the closed end. -/
  | closing
  /-- Travelling up to the half-open place. -/
  | movingHalf
  /-- Travelling up to the venting place. -/
  | movingVent
  /-- Standing at the venting place. -/
  | ventReached
  /-- Standing at the open end. -/
  | opened
  /-- Standing at the closed end. -/
  | closed
  /-- Standing at the half-open place. -/
  | halfReached
  /-- A code without a meaning here. -/
  | other (byte : UInt8)
  deriving DecidableEq, Repr

namespace StateCode

/-- Every code with a meaning. -/
def named : List StateCode :=
  [stopped, opening, closing, movingHalf, movingVent, ventReached, opened, closed, halfReached]

/-- The code on the wire. -/
def toByte : StateCode → UInt8
  | stopped => 0x00
  | opening => 0x01
  | closing => 0x02
  | movingHalf => 0x05
  | movingVent => 0x09
  | ventReached => 0x0A
  | opened => 0x20
  | closed => 0x40
  | halfReached => 0x80
  | other byte => byte

/-- The code for a byte from the wire. -/
def ofByte (byte : UInt8) : StateCode :=
  (named.find? (·.toByte = byte)).getD (other byte)

/-- Spelling in reports. -/
def name : StateCode → String
  | stopped => "Stopped"
  | opening => "Opening"
  | closing => "Closing"
  | movingHalf => "MoveHalf"
  | movingVent => "MoveVenting"
  | ventReached => "VentReached"
  | opened => "Open"
  | closed => "Closed"
  | halfReached => "HalfOpenReached"
  | other byte => "Other(" ++ toString byte.toNat ++ ")"

/-- The code of this spelling. -/
def ofName? (name : String) : Option StateCode :=
  (named ++ (List.range 256).map fun byte => other (.ofNat byte)).find? (·.name = name)

/-- Whether the door is travelling. -/
def isMoving : StateCode → Bool
  | opening | closing | movingHalf | movingVent => true
  | _ => false

end StateCode

/-- What the door is doing, in the words a host needs. -/
inductive DoorState
  /-- Standing. -/
  | idle
  /-- Travelling towards the open end. -/
  | opening
  /-- Travelling towards the closed end. -/
  | closing
  /-- The drive reports a fault. -/
  | error
  /-- Nothing sensible is known. -/
  | unknown
  deriving DecidableEq, Repr

namespace DoorState

/-- Every state, in the order of its numbers. -/
def all : List DoorState :=
  [idle, opening, closing, error, unknown]

/-- The coarse state for a code. No code stands for an error. -/
def ofCode : StateCode → DoorState
  | .opening | .movingHalf | .movingVent => opening
  | .closing => closing
  | .stopped | .opened | .closed | .ventReached | .halfReached => idle
  | .other _ => unknown

/-- Number of the state in data handed to a host. -/
def toByte : DoorState → UInt8
  | idle => 0
  | opening => 1
  | closing => 2
  | error => 3
  | unknown => 4

/-- The state of this number; a number of no state is unknown. -/
def ofByte (byte : UInt8) : DoorState :=
  (all.find? (·.toByte = byte)).getD unknown

/-- Spelling in stored text. -/
def name : DoorState → String
  | idle => "Idle"
  | opening => "Opening"
  | closing => "Closing"
  | error => "Error"
  | unknown => "Unknown"

/-- The state of this spelling. -/
def ofName? (name : String) : Option DoorState :=
  all.find? (·.name = name)

end DoorState

end DoorBus

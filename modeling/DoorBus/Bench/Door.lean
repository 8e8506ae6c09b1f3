import DoorBus.Clock
import DoorBus.Door.Action
import DoorBus.Door.Status

/-!
# A Door on the Bench

A door that travels one unit of its way in a fixed time. Time that does not
make up a whole unit is carried over to the next move, but only while the door
is travelling: a door at rest forgets it.

Advancing by a span is done in one go. The time at hand, carried and elapsed,
pays for a number of units; the door takes as many of them as there are left
to its target, and carries what is left of the time.

## Main definitions

* `Door`: Position, target, light, and the time carried.
* `Door.advance`: Time passes.
* `Door.apply`: An action is asked for.
* `Door.stateCode`, `Door.status`: What a drive would report.
-/

namespace DoorBus

/-- A door that travels one unit in a fixed time. -/
structure Door where
  /-- Where the door is. -/
  position : UInt8 := 0
  /-- Where it travels to. -/
  target : UInt8 := 0
  /-- Whether the light is on. -/
  light : Bool := false
  /-- Whether the last way asked for was to the venting place. -/
  venting : Bool := false
  /-- Time that a unit takes. -/
  unitTime : Millis
  /-- Time carried over. -/
  carried : Millis := 0
  unitTime_pos : 0 < unitTime
  deriving DecidableEq

namespace Door

/-- Position of the half-open place. -/
def halfOpenPosition : UInt8 := 100

/-- Position of the venting place. -/
def ventPosition : UInt8 := 20

/-- A closed door that travels a unit in a given time, of at least one
    millisecond. -/
def new (unitTime : Millis) : Door where
  unitTime := max unitTime 1
  unitTime_pos := by
    rw [UInt32.lt_iff_toNat_lt]
    by_cases short : unitTime ≤ 1
    · rw [show max unitTime 1 = 1 from if_pos short]
      decide
    · rw [show max unitTime 1 = unitTime from if_neg short]
      rw [UInt32.le_iff_toNat_le] at short
      have : (1 : UInt32).toNat = 1 := rfl
      have : (0 : UInt32).toNat = 0 := rfl
      omega

/-- Whether the door is travelling. -/
def isMoving (door : Door) : Bool :=
  door.position != door.target

/-- Units left to the target. -/
def distance (door : Door) : Nat :=
  (door.target.toNat - door.position.toNat) + (door.position.toNat - door.target.toNat)

/-- Where the door is after so many units. -/
def positionAfter (door : Door) (units : Nat) : UInt8 :=
  if door.position < door.target then
    .ofNat (door.position.toNat + units)
  else
    .ofNat (door.position.toNat - units)

/-- Units that a door covers with so much time at hand. -/
def unitsIn (door : Door) (time : Millis) : Nat :=
  min (time.toNat / door.unitTime.toNat) door.distance

/-- Time passes. A travelling door has to add it to the time carried, which
    must fit. -/
def advance (door : Door) (elapsed : Millis) : Except ArithmeticFault Door :=
  if door.isMoving then
    (Millis.sum? door.carried elapsed).map fun time =>
      { door with
        position := door.positionAfter (door.unitsIn time)
        carried := .ofNat (time.toNat - door.unitsIn time * door.unitTime.toNat) }
  else
    -- Only here is the rest forgotten: a door that has just arrived still carries it.
    .ok { door with carried := 0 }

/-- Set out for a position. -/
def headFor (door : Door) (target : UInt8) (venting : Bool) : Door :=
  { door with target, venting }

/-- An action is asked for. -/
def apply (door : Door) : Action → Door
  | .openDoor => door.headFor DoorStatus.maxPosition false
  | .closeDoor => door.headFor 0 false
  | .stop => { door with target := door.position }
  | .halfOpen => door.headFor halfOpenPosition false
  | .vent => door.headFor ventPosition true
  | .toggleLight => { door with light := !door.light }

/-- Code for a travelling door. -/
def movingCode (door : Door) : StateCode :=
  if door.position < door.target then
    if door.target = ventPosition ∧ door.venting then .movingVent
    else if door.target = halfOpenPosition then .movingHalf
    else .opening
  else
    .closing

/-- Code for a door at rest. -/
def restingCode (door : Door) : StateCode :=
  if door.position = DoorStatus.maxPosition then .opened
  else if door.position = 0 then .closed
  else if door.position = ventPosition ∧ door.venting then .ventReached
  else if door.position = halfOpenPosition then .halfReached
  else .stopped

/-- The code that a drive would report. -/
def stateCode (door : Door) : StateCode :=
  if door.isMoving then door.movingCode else door.restingCode

/-- The status that a drive would report. -/
def status (door : Door) : DoorStatus :=
  .ofCode door.position door.target door.stateCode door.light

end Door

end DoorBus

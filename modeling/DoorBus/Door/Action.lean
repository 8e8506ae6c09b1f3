/-!
# Door Actions

What a door can be asked to do. Each action has a code on the wire. The bus
carries codes, not actions: a code that names no action travels like any
other, and zero stands for "nothing to do".

## Main definitions

* `Action`: The six actions.
* `Action.code`, `Action.ofCode?`: Their codes.
* `Action.name`, `Action.ofName?`: Their spelling in stored text.
* `ActionCode`: A code as it travels, known or not.

## Theorems

* `ofCode?_code`: An action is read back from its code.
-/

namespace DoorBus

/-- What a door can be asked to do. -/
inductive Action
  /-- Travel to the open end. -/
  | openDoor
  /-- Travel to the closed end. -/
  | closeDoor
  /-- Stop where it is. -/
  | stop
  /-- Travel to the half-open place. -/
  | halfOpen
  /-- Travel to the venting place. -/
  | vent
  /-- Switch the light. -/
  | toggleLight
  deriving DecidableEq, Repr

namespace Action

/-- Every action. -/
def all : List Action :=
  [openDoor, closeDoor, stop, halfOpen, vent, toggleLight]

/-- Code on the wire. -/
def code : Action → UInt16
  | openDoor => 0x0010
  | closeDoor => 0x0020
  | stop => 0x0040
  | halfOpen => 0x0400
  | vent => 0x4000
  | toggleLight => 0x0200

/-- The action with this code. -/
def ofCode? (code : UInt16) : Option Action :=
  all.find? (·.code = code)

/-- Spelling in stored text. -/
def name : Action → String
  | openDoor => "Open"
  | closeDoor => "Close"
  | stop => "Stop"
  | halfOpen => "HalfOpen"
  | vent => "Vent"
  | toggleLight => "ToggleLight"

/-- The action of this spelling. -/
def ofName? (name : String) : Option Action :=
  all.find? (·.name = name)

theorem ofCode?_code (action : Action) : ofCode? action.code = some action := by
  cases action <;> rfl

end Action

/-- A code as it travels on the bus, whether it names an action or not. -/
structure ActionCode where
  /-- The code. -/
  value : UInt16
  deriving DecidableEq, Repr

namespace ActionCode

/-- Nothing to do. -/
def none : ActionCode :=
  ⟨0⟩

/-- The code of an action. -/
def ofAction (action : Action) : ActionCode :=
  ⟨action.code⟩

/-- Whether the code asks for anything. -/
def isPending (request : ActionCode) : Bool :=
  request.value != 0

/-- The action that the code names. -/
def action? (request : ActionCode) : Option Action :=
  Action.ofCode? request.value

end ActionCode

end DoorBus

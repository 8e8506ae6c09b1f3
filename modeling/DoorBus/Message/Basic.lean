import DoorBus.Door.Status
import DoorBus.Wire.Frame

/-!
# Messages

What the stations say to each other. The bridge asks with a poll request,
the drive answers with a poll response or an exception, and on its own writes
its status to everybody. The register blocks that these messages read and
write are named here.

## Main definitions

* `MessageError`: Why a frame is not the message it was taken for.
* `PollKind`: The two kinds of poll.
* `PollKind.readQuantity`: Number of registers that a kind asks for.
* `Block`: Where the register blocks begin.

## Theorems

* `readQuantity_le`: No kind of poll asks for more than `maxQuantity`.
-/

namespace DoorBus

/-- Why a frame is not the message it was taken for. -/
inductive MessageError
  /-- A status broadcast whose layout is not the expected one. -/
  | malformedStatus
  /-- An answer whose layout is not the expected one. -/
  | malformedResponse
  /-- A poll request whose layout is not the expected one. -/
  | malformedRequest
  /-- An address and function that the reader does not handle. -/
  | unexpectedFrame
  /-- A write to some other block of registers. -/
  | unknownRegister
  deriving DecidableEq, Repr

namespace MessageError

/-- Every error. -/
def all : List MessageError :=
  [malformedStatus, malformedResponse, malformedRequest, unexpectedFrame, unknownRegister]

/-- Spelling in reports. -/
def name : MessageError → String
  | malformedStatus => "MalformedStatus"
  | malformedResponse => "MalformedResponse"
  | malformedRequest => "MalformedRequest"
  | unexpectedFrame => "UnexpectedFrame"
  | unknownRegister => "UnknownRegister"

end MessageError

/-- The two kinds of poll. -/
inductive PollKind
  /-- Asks the drive who it is. -/
  | busScan
  /-- Asks a drive that is known for news. -/
  | commandPoll
  deriving DecidableEq, Repr

namespace PollKind

/-- Every kind. -/
def all : List PollKind :=
  [busScan, commandPoll]

/-- Spelling in reports. -/
def name : PollKind → String
  | busScan => "BusScan"
  | commandPoll => "CommandPoll"

/-- Number of registers that the poll asks for. -/
def readQuantity : PollKind → UInt16
  | busScan => 5
  | commandPoll => 8

/-- The kind of poll that asks for so many registers. -/
def ofReadQuantity? (quantity : UInt16) : Option PollKind :=
  all.find? (·.readQuantity = quantity)

/-- Most registers that any poll asks for. -/
def maxQuantity : Nat := 8

theorem readQuantity_le (kind : PollKind) : kind.readQuantity.toNat ≤ maxQuantity := by
  cases kind <;> decide

end PollKind

/-- Number of registers by which a drive identifies itself. -/
def identificationCount : Nat := 3

namespace Block

/-- Status of the door, written by the drive. -/
def status : UInt16 := 0x9D31

/-- Action code, written by the bridge. -/
def action : UInt16 := 0x9C41

/-- Answer to a poll, read by the bridge. -/
def poll : UInt16 := 0x9CB9

end Block

end DoorBus

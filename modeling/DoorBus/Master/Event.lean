import DoorBus.Door.Action
import DoorBus.Master.Fault
import DoorBus.Master.Record

/-!
# Events

While it services the bus, the bridge notes what happened. The notes of one
call are collected in a queue of limited room: when it is full, later notes
are lost, but never what they are about.

## Main definitions

* `Event`: A note.
* `EventQueue`: The notes of one call, with their limit.
* `EventQueue.push`: One more note, if there is room.
-/

namespace DoorBus

/-- A note of something that happened on the bus. -/
inductive Event
  /-- A request went to the line. -/
  | sent (kind : PollKind) (action : ActionCode)
  /-- The drive answered the poll. -/
  | completed (kind : PollKind)
  /-- The poll got no usable answer. -/
  | timedOut (kind : PollKind)
  /-- A status was heard that differs from the last one. -/
  | statusUpdated (status : DoorStatus)
  /-- A status could not be read; the last one stands. -/
  | statusRejected (fault : BusFault)
  /-- An answer did not fit the request. -/
  | responseRejected (fault : BusFault)
  /-- Bytes were given up in search of a frame. -/
  | frameDropped (fault : BusFault)
  /-- An answer came while none was due. -/
  | lateResponse
  /-- The drive identified itself. -/
  | identified (words : Identification)
  /-- The drive asks for an action. -/
  | driveRequest (code : UInt16)
  /-- The drive answered with an exception. -/
  | driveFault (code : UInt8)
  /-- The link came up. -/
  | connected
  /-- The link went down. -/
  | disconnected
  deriving DecidableEq, Repr

/-- The action code that the drive asks for, if that is what the note is
    about. -/
def Event.driveRequest? : Event → Option UInt16
  | driveRequest code => some code
  | _ => none

/-- The notes of one call. -/
structure EventQueue where
  /-- Most notes that are kept; no limit if absent. -/
  limit : Option Nat
  /-- The notes, first one first. -/
  events : List Event := []
  deriving DecidableEq, Repr

namespace EventQueue

/-- Room of the queue that a bridge uses. -/
def capacity : Nat := 16

/-- The queue that a bridge uses, without notes. -/
def empty : EventQueue where
  limit := some capacity

/-- A queue that never fills. -/
def unbounded : EventQueue where
  limit := none

/-- Whether another note is kept. -/
def hasRoom (queue : EventQueue) : Bool :=
  match queue.limit with
  | some limit => queue.events.length < limit
  | none => true

/-- One more note, if there is room. -/
def push (queue : EventQueue) (event : Event) : EventQueue :=
  if queue.hasRoom then { queue with events := queue.events ++ [event] } else queue

end EventQueue

end DoorBus

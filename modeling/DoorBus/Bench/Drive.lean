import DoorBus.Bench.Bus
import DoorBus.Bench.Door
import DoorBus.Message.Broadcast
import DoorBus.Message.Request
import DoorBus.Message.Response

/-!
# A Drive on the Bench

A drive that answers the bridge the way a real one does: a bus scan gets the
identification, a command poll gets the action that the drive asks for. On its
own it broadcasts the status of its door at a fixed interval. It takes all
that the bridge has written since it looked last as one frame.

For tests it can be made silent, made to answer with an exception, and made to
send noise ahead of its next frame. It keeps a record of the requests it has
understood, and counts the others.

## Main definitions

* `Drive`: The state of the drive.
* `Drive.handle`: A frame from the bridge, and its answer.
* `Drive.broadcastBytes`: The status broadcast.
* `Drive.service`: The drive catches up with the bus.
-/

namespace DoorBus

/-- A drive on the bench. -/
structure Drive where
  /-- The door that it moves. -/
  door : Door
  /-- Number of answers given, modulo 256. -/
  syncCounter : UInt8 := 0
  /-- Number of actions taken, modulo 256. -/
  commandCounter : UInt8 := 0
  /-- Whether it neither answers nor broadcasts. -/
  silent : Bool := false
  /-- Code of the exception that it answers every request with. -/
  exception : Option UInt8 := none
  /-- Noise ahead of the next frame. -/
  noise : List UInt8 := []
  /-- Code of the action that it asks for, or zero. -/
  driveRequest : UInt16 := 0
  /-- Time between two broadcasts. -/
  broadcastInterval : Millis := 250
  /-- When it broadcast last. -/
  lastBroadcast : Option Millis := none
  /-- When it caught up with the bus last. -/
  lastService : Millis
  /-- The requests understood so far. -/
  requests : Array Request := #[]
  /-- Number of requests not understood. -/
  rejected : Nat := 0
  deriving DecidableEq

namespace Drive

/-- The words by which this drive identifies itself. -/
def identification : List UInt16 :=
  [0x0430, 0x10FF, 0xA845]

/-- Time that the door of a new drive takes for a unit. -/
def standardUnitTime : Millis := 10

/-- A drive with a closed door, at the time of its bus. -/
def new (bus : Bus) : Drive where
  door := .new standardUnitTime
  lastService := bus.now

/-- Status of the door. -/
def status (drive : Drive) : DoorStatus :=
  drive.door.status

/-- A button on the wall is pressed. -/
def press (drive : Drive) (action : Action) : Drive :=
  { drive with door := drive.door.apply action }

/-- Add noise ahead of the next frame. -/
def addNoise (drive : Drive) (bytes : List UInt8) : Drive :=
  { drive with noise := drive.noise ++ bytes }

/-- Codes of the requests that asked for anything. -/
def actionsReceived (drive : Drive) : List UInt16 :=
  drive.requests.toList.filterMap fun request =>
    if request.action.isPending then some request.action.value else none

/-! ## Answers -/

/-- Low byte of the second register in an answer. -/
def echoTag : PollKind → UInt8
  | .busScan => 5
  | .commandPoll => 1

/-- Registers behind the two counters in an answer. -/
def contents (drive : Drive) : PollKind → List UInt16
  | .busScan => identification
  | .commandPoll => [drive.driveRequest, 0, 0, 0, 0, 0]

/-- The answer to a poll. -/
def respond (drive : Drive) (kind : PollKind) : Response where
  kind := kind
  registers :=
    Word.join drive.syncCounter 0 :: Word.join drive.commandCounter (echoTag kind) ::
      drive.contents kind
  registers_le := match kind with
    | .busScan => (by decide : 5 ≤ PollKind.maxQuantity)
    | .commandPoll => (by decide : 8 ≤ PollKind.maxQuantity)

/-- Act on a request: move the door if the code names an action, and count. -/
def obey (drive : Drive) (action : ActionCode) : Drive :=
  let drive := match action.action? with
    | some action =>
      { drive with door := drive.door.apply action, commandCounter := drive.commandCounter + 1 }
    | none => drive
  { drive with syncCounter := drive.syncCounter + 1 }

/-- The action that the drive asks for has been passed on in answer to a
    command poll. -/
def passOn (drive : Drive) : PollKind → Drive
  | .busScan => drive
  | .commandPoll => { drive with driveRequest := 0 }

/-- The request that a run of bytes is. -/
def request? (bytes : List UInt8) : Option Request :=
  match Frame.decode bytes with
  | .ok frame => (Request.ofFrame frame).toOption
  | .error _ => none

/-- The exception frame of a code. -/
def exceptionBytes (code : UInt8) : Option (List UInt8) :=
  ((Frame.make Address.drive Function.pollException [code]).bind Frame.encode).toOption

/-- A frame from the bridge, with the answer if there is one. -/
def handle (drive : Drive) (bytes : List UInt8) : Drive × Option (List UInt8) :=
  match request? bytes with
  | none => ({ drive with rejected := drive.rejected + 1 }, none)
  | some request =>
    let drive := { drive with requests := drive.requests.push request }
    if drive.silent then
      (drive, none)
    else
      match drive.exception with
      | some code => (drive, exceptionBytes code)
      | none =>
        let drive := drive.obey request.action
        (drive.passOn request.kind,
          ((drive.respond request.kind).toFrame.bind Frame.encode).toOption)

/-! ## The bus -/

/-- The status broadcast for the door as it is. -/
def broadcastBytes (drive : Drive) : List UInt8 :=
  (((Broadcast.mk drive.status.toRegisters).toFrame.bind Frame.encode).toOption).getD []

/-- Send bytes, with any noise ahead of them. -/
def send (drive : Drive) (bus : Bus) (bytes : List UInt8) : Drive × Bus :=
  ({ drive with noise := [] }, bus.push (drive.noise ++ bytes))

/-- Answer what the bridge has written. -/
def answer (drive : Drive) (bus : Bus) : Drive × Bus :=
  let (bus, written) := bus.take
  if written.isEmpty then
    (drive, bus)
  else
    match drive.handle written with
    | (drive, some reply) => drive.send bus reply
    | (drive, none) => (drive, bus)

/-- Whether it is time for a broadcast. -/
def isBroadcastDue (drive : Drive) (now : Millis) : Bool :=
  match drive.lastBroadcast with
  | some last => drive.broadcastInterval ≤ Millis.elapsed last now
  | none => true

/-- Broadcast the status if it is time. -/
def broadcast (drive : Drive) (bus : Bus) : Drive × Bus :=
  if drive.isBroadcastDue bus.now && !drive.silent then
    { drive with lastBroadcast := some bus.now }.send bus drive.broadcastBytes
  else
    (drive, bus)

/-- Catch up with the bus: move the door, answer, broadcast. -/
def service (drive : Drive) (bus : Bus) : Except ArithmeticFault (Drive × Bus) := do
  let door ← drive.door.advance (Millis.elapsed drive.lastService bus.now)
  let (drive, bus) := { drive with door, lastService := bus.now }.answer bus
  return drive.broadcast bus

end Drive

end DoorBus

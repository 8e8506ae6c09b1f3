import DoorBus.Config.Basic
import DoorBus.Master.Event
import DoorBus.Master.Phase
import DoorBus.Message.Broadcast
import DoorBus.Message.Incoming
import DoorBus.Message.Request
import DoorBus.Message.Response
import DoorBus.Wire.Receiver

/-!
# The Bus Master

The bridge masters the bus: it polls the drive, one poll at a time, and
listens. As long as the link is down a poll is a bus scan, afterwards a
command poll. Status broadcasts are taken whenever they come, and affect
neither the rhythm of the polls nor the link.

The master knows nothing about the line. Whoever runs it brings the bytes
that arrived, takes the requests to the line, and tells how that went. Times
are only used through `Millis.elapsed`.

Every call may note events in a queue that it is given. What the queue holds,
and whether it is full, has no influence on the master.

## Main definitions

* `Master`: The state of the bridge on the bus.
* `Master.beginIfDue`: Begin a poll when it is time.
* `Master.transmitted`, `Master.transmitFailed`: How sending it went.
* `Master.hear`: Bytes arrived.
* `Master.checkTimeouts`: Time has passed.
-/

namespace DoorBus

/-- The state of the bridge on the bus. -/
structure Master where
  /-- How far the poll under way has come. -/
  phase : Phase := .idle
  /-- The bytes of an unfinished frame. -/
  receiver : Receiver := {}
  /-- What has been learned about the drive. -/
  record : DriveRecord
  /-- The timing kept. -/
  timing : Timing
  /-- When the last poll was begun. -/
  lastPoll : Option Millis := none
  /-- When the last request had been sent. -/
  sentAt : Millis := 0
  /-- When bytes last arrived. -/
  lastHeard : Millis := 0
  deriving DecidableEq, Repr

namespace Master

/-- A master that has not polled yet. -/
def new (timing : Timing) : Master where
  record := .new timing.disconnectThreshold
  timing := timing

/-- The view of a host. -/
def snapshot (master : Master) : Snapshot :=
  master.record.snapshot

/-- Kind of the next poll. -/
def nextKind (master : Master) : PollKind :=
  if master.record.link.isUp then .commandPoll else .busScan

/-- Whether it is time for a poll. -/
def isDue (master : Master) (now : Millis) : Bool :=
  master.phase.isIdle &&
    match master.lastPoll with
    | some last => master.timing.pollInterval ≤ Millis.elapsed last now
    | none => true

/-- Move the poll under way on. -/
def move (master : Master) (step : PhaseStep) : Master :=
  { master with phase := master.phase.next step }

/-! ## Outcomes of a poll -/

/-- The link hears of an answered poll. -/
def recordSuccess (master : Master) (queue : EventQueue) : Master × EventQueue :=
  let (record, change) := master.record.succeed
  ({ master with record }, if change = .connected then queue.push .connected else queue)

/-- The poll under way has failed: the link hears of it, and the next poll can
    be begun. -/
def resolveFailure (master : Master) (queue : EventQueue) : Master × EventQueue :=
  -- The kind is known only until the phase is left.
  let queue := match master.phase.kind? with
    | some kind => queue.push (.timedOut kind)
    | none => queue
  let (record, change) := master.record.fail
  let queue := if change = .disconnected then queue.push .disconnected else queue
  (({ master with record }).move .settled, queue)

/-- Take from a usable answer what its kind has to say. -/
def learn (master : Master) (response : Response) (queue : EventQueue) : Master × EventQueue :=
  match response.kind with
  | .busScan =>
    let words : Identification := Vector.ofFn fun i => response.identification[i]?.getD 0
    ({ master with record := master.record.identify words }, queue.push (.identified words))
  | .commandPoll =>
    match response.driveRequest? with
    | some code => (master, queue.push (.driveRequest code))
    | none => (master, queue)

/-- The poll under way got a usable answer. -/
def complete (master : Master) (response : Response) (queue : EventQueue) :
    Master × EventQueue :=
  let master := master.move .responseReceived
  let master := { master with record := master.record.setFault false }
  let (master, queue) := master.recordSuccess queue
  let (master, queue) := master.learn response queue
  (master.move .settled, queue.push (.completed response.kind))

/-! ## Frames -/

/-- A broadcast came. -/
def onBroadcast (master : Master) (frame : Frame) (queue : EventQueue) : Master × EventQueue :=
  match DoorStatus.ofFrame frame with
  | .ok status =>
    let (record, isNew) := master.record.hear status
    ({ master with record }, if isNew then queue.push (.statusUpdated status) else queue)
  | .error error => (master, queue.push (.statusRejected (.ofMessageError error)))

/-- An answer came. It only counts while one is due. -/
def onResponse (master : Master) (frame : Frame) (queue : EventQueue) : Master × EventQueue :=
  match master.phase with
  | .awaiting kind =>
    match Response.ofFrame frame kind with
    | .ok response => master.complete response queue
    | .error error =>
      let queue := queue.push (.responseRejected (.ofMessageError error))
      (master.move .responseRejected).resolveFailure queue
  | _ => (master, queue.push .lateResponse)

/-- An exception came. While an answer is due it counts as one. -/
def onException (master : Master) (code : UInt8) (queue : EventQueue) : Master × EventQueue :=
  if master.phase.isAwaiting then
    let master := { master with record := master.record.setFault true }
    let queue := queue.push (.driveFault code)
    let (master, queue) := (master.move .responseReceived).recordSuccess queue
    (master.move .settled, queue)
  else
    (master, queue.push .lateResponse)

/-- A frame came. -/
def onFrame (master : Master) (frame : Frame) (queue : EventQueue) : Master × EventQueue :=
  match Incoming.ofFrame frame with
  | .ok (.broadcast frame) => master.onBroadcast frame queue
  | .ok (.response frame) => master.onResponse frame queue
  | .ok (.exception code) => master.onException code queue
  | .error error => (master, queue.push (.frameDropped (.ofMessageError error)))

/-! ## Bytes and time -/

/-- One byte arrives. -/
def hearByte (master : Master) (byte : UInt8) (queue : EventQueue) : Master × EventQueue :=
  let (receiver, result) := master.receiver.feed byte
  let master := { master with receiver }
  match result with
  | .ok (some frame) => master.onFrame frame queue
  | .ok none => (master, queue)
  | .error error => (master, queue.push (.frameDropped (.ofFrameError error)))

/-- Bytes arrive one after the other. -/
def hearBytes (master : Master) (queue : EventQueue) : List UInt8 → Master × EventQueue
  | [] => (master, queue)
  | byte :: rest =>
    let (master, queue) := master.hearByte byte queue
    master.hearBytes queue rest

/-- Give up an unfinished frame once the bus has been silent for long
    enough. -/
def flushStale (master : Master) (now : Millis) (queue : EventQueue) : Master × EventQueue :=
  if master.receiver.pending = 0 ∨
      Millis.elapsed master.lastHeard now < master.timing.frameGap then
    (master, queue)
  else
    match master.receiver.flush with
    | (receiver, .ok ()) => ({ master with receiver }, queue)
    | (receiver, .error error) =>
      ({ master with receiver }, queue.push (.frameDropped (.ofFrameError error)))

/-- Bytes were read from the line at a given time. -/
def hear (master : Master) (now : Millis) (bytes : List UInt8) (queue : EventQueue) :
    Master × EventQueue :=
  if bytes.isEmpty then
    (master, queue)
  else
    let (master, queue) := master.flushStale now queue
    ({ master with lastHeard := now }).hearBytes queue bytes

/-- Whether the answer is overdue. -/
def isOverdue (master : Master) (now : Millis) : Bool :=
  master.phase.isAwaiting &&
    master.timing.responseTimeout ≤ Millis.elapsed master.sentAt now

/-- Give up what has taken too long: an unfinished frame, and the poll under
    way. -/
def checkTimeouts (master : Master) (now : Millis) (queue : EventQueue) :
    Master × EventQueue :=
  let (master, queue) := master.flushStale now queue
  if master.isOverdue now then
    (master.move .deadlineElapsed).resolveFailure queue
  else
    (master, queue)

/-! ## Polling -/

/-- The request has been sent. The answer is due from now on. -/
def transmitted (master : Master) (now : Millis) : Master :=
  { master.move .transmitted with sentAt := now }

/-- The request could not be sent, which counts as no answer. -/
def transmitFailed (master : Master) (queue : EventQueue) : Master × EventQueue :=
  (master.move .transmitFailed).resolveFailure queue

/-- What beginning a poll leads to, where `σ` is the source of the action
    code. -/
structure Begun (σ : Type) where
  /-- The master. -/
  master : Master
  /-- The source, with the code taken out if it was asked for one. -/
  source : σ
  /-- The notes. -/
  queue : EventQueue
  /-- Bytes of the request, if it was time for one. -/
  request : Except BusFault (Option (List UInt8))

/-- Begin a poll if it is time. The source is asked for an action code only
    when a request is built, so that a code leaves it exactly when it is put
    into a request. Whoever asked has to tell how sending the request went. -/
def beginIfDue {σ : Type} (master : Master) (now : Millis) (take : σ → σ × ActionCode)
    (source : σ) (queue : EventQueue) : Begun σ :=
  if master.isDue now then
    let kind := master.nextKind
    let (source, action) := take source
    let master := { master.move (.start kind) with lastPoll := some now }
    match (Request.mk kind action).toFrame.bind Frame.encode with
    | .ok bytes => ⟨master, source, queue.push (.sent kind action), .ok (some bytes)⟩
    | .error error =>
      let (master, queue) := master.transmitFailed queue
      ⟨master, source, queue, .error (.ofFrameError error)⟩
  else
    ⟨master, source, queue, .ok none⟩

end Master

end DoorBus

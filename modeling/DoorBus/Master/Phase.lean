import DoorBus.Message.Basic

/-!
# Transaction Phases

One poll is under way at a time. It is sent, waits for its answer, and ends
one way or the other; the end is passed at once, so from outside the bus is
seen idle, sending or waiting. A step that does not belong to the phase
changes nothing.

## Main definitions

* `Phase`: How far the poll under way has come.
* `PhaseStep`: What moves it on.
* `Phase.next`: The phase after a step.
-/

namespace DoorBus

/-- How far the poll under way has come. -/
inductive Phase
  /-- No poll is under way. -/
  | idle
  /-- The request is being sent. -/
  | sending (kind : PollKind)
  /-- The request is sent, the answer is due. -/
  | awaiting (kind : PollKind)
  /-- The answer has come. -/
  | completed (kind : PollKind)
  /-- There is no usable answer. -/
  | timedOut (kind : PollKind)
  deriving DecidableEq, Repr

/-- What moves a poll on. -/
inductive PhaseStep
  /-- A poll is begun. -/
  | start (kind : PollKind)
  /-- The request has been sent. -/
  | transmitted
  /-- The request could not be sent. -/
  | transmitFailed
  /-- A usable answer came. -/
  | responseReceived
  /-- An answer came that does not fit. -/
  | responseRejected
  /-- The answer is overdue. -/
  | deadlineElapsed
  /-- The outcome has been dealt with. -/
  | settled
  deriving DecidableEq, Repr

namespace PhaseStep

/-- Whether the step decides how the poll ends. -/
def isOutcome : PhaseStep → Bool
  | transmitFailed | responseReceived | responseRejected | deadlineElapsed => true
  | start _ | transmitted | settled => false

end PhaseStep

namespace Phase

/-- Kind of the poll under way. -/
def kind? : Phase → Option PollKind
  | idle => none
  | sending kind | awaiting kind | completed kind | timedOut kind => some kind

/-- Spelling in reports. -/
def name : Phase → String
  | idle => "Idle"
  | sending kind => "Sending(" ++ kind.name ++ ")"
  | awaiting kind => "AwaitingResponse(" ++ kind.name ++ ")"
  | completed kind => "Completed(" ++ kind.name ++ ")"
  | timedOut kind => "TimedOut(" ++ kind.name ++ ")"

/-- Whether a poll can be begun. -/
def isIdle : Phase → Bool
  | idle => true
  | _ => false

/-- Whether an answer is due. -/
def isAwaiting : Phase → Bool
  | awaiting _ => true
  | _ => false

/-- The phase after a step. -/
def next : Phase → PhaseStep → Phase
  | idle, .start kind => sending kind
  | sending kind, .transmitted => awaiting kind
  | sending kind, .transmitFailed => timedOut kind
  | awaiting kind, .responseReceived => completed kind
  | awaiting kind, .responseRejected => timedOut kind
  | awaiting kind, .deadlineElapsed => timedOut kind
  | completed _, .settled => idle
  | timedOut _, .settled => idle
  | phase, _ => phase

end Phase

end DoorBus

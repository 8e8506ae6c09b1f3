import DoorBus.Message.Basic
import DoorBus.Master.Link

/-!
# The Record of the Drive

What the bridge has learned about the drive: the last status it described,
whether it answered the last poll with an exception, the state of the link,
and how it identified itself. The parts are learned separately and put
together only when a host looks at them, in a `Snapshot`.

## Main definitions

* `Snapshot`: What a host may look at, at one instant.
* `DriveRecord`: What the bridge has learned.
* `DriveRecord.snapshot`: The view of a host.
-/

namespace DoorBus

/-- What a host may look at, at one instant. -/
structure Snapshot where
  /-- The last good status. Its coarse state is an error while the drive
      reports a fault. -/
  status : DoorStatus
  /-- Whether the link is up. -/
  connected : Bool
  /-- Whether any status has been heard at all. -/
  valid : Bool
  deriving DecidableEq, Repr

/-- The view before anything has been learned. -/
def Snapshot.empty : Snapshot where
  status := .unknown
  connected := false
  valid := false

/-- The words by which a drive identifies itself. -/
abbrev Identification := Vector UInt16 identificationCount

/-- What the bridge has learned about the drive. -/
structure DriveRecord where
  /-- The last status heard. -/
  lastStatus : Option DoorStatus := none
  /-- Whether the last answer was an exception. -/
  fault : Bool := false
  /-- The link to the drive. -/
  link : Link
  /-- How the drive identified itself last. -/
  identification : Option Identification := none
  deriving DecidableEq, Repr

namespace DriveRecord

/-- Nothing has been learned yet. -/
def new (threshold : UInt8) : DriveRecord where
  link := .new threshold

/-- A status was heard. Tells whether it says something new. -/
def hear (record : DriveRecord) (status : DoorStatus) : DriveRecord × Bool :=
  ({ record with lastStatus := some status }, record.lastStatus != some status)

/-- An answer was an exception, or was not. -/
def setFault (record : DriveRecord) (fault : Bool) : DriveRecord :=
  { record with fault }

/-- The drive identified itself. -/
def identify (record : DriveRecord) (words : Identification) : DriveRecord :=
  { record with identification := some words }

/-- A poll was answered. -/
def succeed (record : DriveRecord) : DriveRecord × LinkChange :=
  let (link, change) := record.link.succeed
  ({ record with link }, change)

/-- A poll was not answered. -/
def fail (record : DriveRecord) : DriveRecord × LinkChange :=
  let (link, change) := record.link.fail
  ({ record with link }, change)

/-- The status as a host should see it. -/
def status (record : DriveRecord) : DoorStatus :=
  let status := record.lastStatus.getD .unknown
  if record.fault then status.withState .error else status

/-- The view of a host. -/
def snapshot (record : DriveRecord) : Snapshot where
  status := record.status
  connected := record.link.isUp
  valid := record.lastStatus.isSome

end DriveRecord

end DoorBus

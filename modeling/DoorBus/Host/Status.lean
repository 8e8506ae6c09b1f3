import DoorBus.Master.Record

/-!
# Status for the Host

A host program gets the snapshot as plain bytes and flags.

## Main definitions

* `HostStatus`: The bytes and flags.
* `Snapshot.toHost`: From a snapshot.
-/

namespace DoorBus

/-- A snapshot as plain bytes and flags. -/
structure HostStatus where
  /-- Where the door is, from 0 (closed) to 200 (open). -/
  position : UInt8
  /-- Where it travels to. -/
  target : UInt8
  /-- Number of the coarse state. -/
  state : UInt8
  /-- State code as the drive sent it. -/
  code : UInt8
  /-- Whether the light is on. -/
  light : Bool
  /-- Whether the link is up. -/
  connected : Bool
  /-- Whether any status has been heard at all. -/
  valid : Bool
  deriving DecidableEq, Repr

/-- A snapshot as plain bytes and flags. -/
def Snapshot.toHost (snapshot : Snapshot) : HostStatus where
  position := snapshot.status.position
  target := snapshot.status.target
  state := snapshot.status.state.toByte
  code := snapshot.status.code.toByte
  light := snapshot.status.light
  connected := snapshot.connected
  valid := snapshot.valid

end DoorBus

import DoorBus.Host.Bridge
import DoorBus.Host.Selection
import DoorBus.Host.Status

/-!
# Firmware

What a host program calls. The firmware has a mailbox of its own and room for
a single bridge, which is used at most once. Mailboxes of small cores lie
elsewhere in memory, and are named by their address, where address zero is no
address. Calls of the host go to the mailbox that was attached last, or to the
own one if there is none.

A call that is refused changes nothing.

## Main definitions

* `Firmware`: The state of the firmware, and the memory it can reach.
* `Firmware.init`: Start the bridge on the main core.
* `Firmware.attach`: Point the host to the mailbox of a small core.
* `Firmware.poll`: Service the bus once.
* `Firmware.enqueue`, `Firmware.currentStatus`, …: Calls of the host.
-/

namespace DoorBus

/-- Where a mailbox lies in memory. -/
abbrev MemoryAddress := UInt32

/-- State of the firmware, with the memory it can reach and with `β` for the
    state of the host's table. -/
structure Firmware (β : Type) where
  /-- The own mailbox. -/
  own : Mailbox := .new
  /-- Mailboxes elsewhere in memory. -/
  memory : MemoryAddress → Mailbox
  /-- The bridge, once its room has been used. -/
  bridge : Option (HostBridge β) := none
  /-- Who runs the bus. There is a single bridge to refer to. -/
  selection : Selection Unit MemoryAddress := {}

namespace Firmware

variable {β : Type}

/-- Memory with another mailbox at an address. -/
def writeMemory (firmware : Firmware β) (address : MemoryAddress) (mailbox : Mailbox) :
    Firmware β :=
  { firmware with
    memory := fun other => if other = address then mailbox else firmware.memory other }

/-! ## Choosing an agent -/

/-- The timing that a host asks for by a poll interval, where zero leaves the
    usual one. -/
def timingFor (interval : Millis) : Timing :=
  let usual := Timing.ofMode .highPerformance
  if interval = 0 then usual else { usual with pollInterval := interval }

/-- Start the bridge on the main core. Refused without a table, with an
    interval that does not work, once a mailbox is attached, and once the room
    for the bridge has been used. -/
def init (firmware : Firmware β) (table : Option (HostTable β)) (interval : Millis)
    (state : β) : Firmware β × β × Bool :=
  match table, (timingFor interval).validate with
  | some table, .ok () =>
    -- Both are looked at before the bridge is set up, which would use its room.
    if firmware.selection.region.isSome || firmware.bridge.isSome then
      (firmware, state, false)
    else
      let (bridge, own, state) := HostBridge.start table (timingFor interval) firmware.own state
      let (selection, granted) := firmware.selection.start (some ())
      ({ firmware with own, bridge := some bridge, selection }, state, granted)
  | _, _ => (firmware, state, false)

/-- Point the host to the mailbox of a small core. Refused at address zero,
    and once the bridge runs. -/
def attach (firmware : Firmware β) (address : MemoryAddress) : Firmware β × Bool :=
  let (selection, granted) :=
    firmware.selection.attach (if address = 0 then none else some address)
  ({ firmware with selection }, granted)

/-! ## Calls of the host -/

/-- The mailbox that calls of the host go to. -/
def mailbox (firmware : Firmware β) : Mailbox :=
  match firmware.selection.region with
  | some address => firmware.memory address
  | none => firmware.own

/-- Change the mailbox that calls of the host go to. -/
def setMailbox (firmware : Firmware β) (mailbox : Mailbox) : Firmware β :=
  match firmware.selection.region with
  | some address => firmware.writeMemory address mailbox
  | none => { firmware with own := mailbox }

/-- Service the bus once, if the bridge runs. -/
def poll (firmware : Firmware β) (state : β) : Firmware β × β :=
  match firmware.selection.bridge, firmware.bridge with
  | some (), some bridge =>
    let (bridge, own, state) := bridge.poll firmware.own state
    ({ firmware with own, bridge := some bridge }, state)
  | _, _ => (firmware, state)

/-- Ask for the action of a code with the next poll. -/
def enqueue (firmware : Firmware β) (code : UInt16) : Firmware β :=
  firmware.setMailbox (firmware.mailbox.enqueue code)

/-- Status of the door. -/
def currentStatus (firmware : Firmware β) : HostStatus :=
  firmware.mailbox.snapshot.toHost

/-- Whether the link is up. -/
def isConnected (firmware : Firmware β) : Bool :=
  firmware.mailbox.isConnected

/-- Code of the action that the drive has asked for, or zero. -/
def takeDriveRequest (firmware : Firmware β) : Firmware β × UInt16 :=
  let (mailbox, code) := firmware.mailbox.takeDriveRequest
  (firmware.setMailbox mailbox, code.getD 0)

end Firmware

end DoorBus

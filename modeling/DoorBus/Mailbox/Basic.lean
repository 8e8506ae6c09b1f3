import DoorBus.Door.Action
import DoorBus.Mailbox.StatusWord

/-!
# The Mailbox

The host and the agent that runs the bus share four words of memory and
nothing else:

* a marker that tells memory that has been set up from memory that has not,
* the status word, written by the agent and read by the host,
* the action slot, filled by the host and emptied by the agent,
* the drive request, filled by the agent and emptied by the host.

Each word is only ever loaded, stored or swapped as a whole, so every
operation here is a single access. The two slots hold 16-bit codes, with zero
for an empty slot. A slot that holds more, because memory was never set up,
is read by its low half.

## Main definitions

* `Mailbox`: The four words.
* `Mailbox.new`, `Mailbox.reset`: Setting up.
* `Mailbox.publish`, `Mailbox.snapshot`: The status word.
* `Mailbox.post`, `Mailbox.takeAction`, `Mailbox.pendingAction`: The action
  slot.
* `Mailbox.publishDriveRequest`, `Mailbox.takeDriveRequest`: The drive
  request.
* `Mailbox.enqueue`, `Mailbox.cancel`, …: What a host does with it.

## Theorems

* `reset_found`: What is found in memory that has been set up.
* `pendingAction_post`, `pendingAction_enqueue`: A code is found as it was put
  in.
* `enqueue_eq`: Asking for an action touches no other word.
* `takeDriveRequest_getD`: The code that the drive has asked for, or zero.
-/

namespace DoorBus

/-- Memory shared by the host and the agent. -/
structure Mailbox where
  /-- Marker of memory that has been set up. -/
  marker : UInt32
  /-- The status word. -/
  status : UInt32
  /-- The action slot. -/
  action : UInt32
  /-- The drive request. -/
  driveRequest : UInt32
  deriving DecidableEq, Repr

namespace Mailbox

/-- Marker of memory that has been set up, "HCP2" in characters. -/
def layoutMarker : UInt32 := 0x48435032

/-- A mailbox that has been set up. -/
def new : Mailbox where
  marker := layoutMarker
  status := StatusWord.empty
  action := 0
  driveRequest := 0

/-- Set memory up, whatever it holds. -/
def reset (_ : Mailbox) : Mailbox :=
  new

/-- Whether memory has been set up. -/
def isInitialised (mailbox : Mailbox) : Bool :=
  mailbox.marker = layoutMarker

/-! ## The status word -/

/-- Write the status word. -/
def publish (mailbox : Mailbox) (snapshot : Snapshot) : Mailbox :=
  { mailbox with status := snapshot.toWord }

/-- Read the status word. -/
def snapshot (mailbox : Mailbox) : Snapshot :=
  .ofWord mailbox.status

/-! ## The action slot -/

/-- Fill the action slot. Gives the code that was replaced. -/
def post (mailbox : Mailbox) (request : ActionCode) : Mailbox × ActionCode :=
  ({ mailbox with action := request.value.toUInt32 }, ⟨mailbox.action.toUInt16⟩)

/-- Empty the action slot. Gives the code that it held. -/
def takeAction (mailbox : Mailbox) : Mailbox × ActionCode :=
  ({ mailbox with action := 0 }, ⟨mailbox.action.toUInt16⟩)

/-- The code in the action slot. -/
def pendingAction (mailbox : Mailbox) : ActionCode :=
  ⟨mailbox.action.toUInt16⟩

/-! ## The drive request -/

/-- Fill the drive request. -/
def publishDriveRequest (mailbox : Mailbox) (code : UInt16) : Mailbox :=
  { mailbox with driveRequest := code.toUInt32 }

/-- Empty the drive request. Gives the code that it held, if any. -/
def takeDriveRequest (mailbox : Mailbox) : Mailbox × Option UInt16 :=
  let code := mailbox.driveRequest.toUInt16
  ({ mailbox with driveRequest := 0 }, if code = 0 then none else some code)

/-! ## The host -/

/-- Ask for the action of a code with the next poll, in place of any that has
    not been sent. Zero only takes that one back. -/
def enqueue (mailbox : Mailbox) (code : UInt16) : Mailbox :=
  (mailbox.post ⟨code⟩).1

/-- Ask for an action with the next poll. -/
def enqueueAction (mailbox : Mailbox) (action : Action) : Mailbox :=
  (mailbox.post (.ofAction action)).1

/-- Take back an action that has not been sent. Gives it, if there was one. -/
def cancel (mailbox : Mailbox) : Mailbox × Option ActionCode :=
  let (mailbox, code) := mailbox.takeAction
  (mailbox, if code.isPending then some code else none)

/-- Status of the door. -/
def currentStatus (mailbox : Mailbox) : DoorStatus :=
  mailbox.snapshot.status

/-- Whether the link is up. -/
def isConnected (mailbox : Mailbox) : Bool :=
  mailbox.snapshot.connected

/-! ## What is found -/

variable (mailbox : Mailbox)

/-- Memory that has been set up is known as such. It shows that nothing is known
    of the drive, and nobody asks for anything. -/
theorem reset_found :
    mailbox.reset.isInitialised = true ∧ mailbox.reset.snapshot = .empty ∧
      mailbox.reset.pendingAction = .none ∧ mailbox.reset.takeDriveRequest.2 = none := by
  rw [reset]
  decide

/-- A code has sixteen bits, so that reading the low half of the slot cuts
    nothing off. -/
theorem pendingAction_post (code : ActionCode) : (mailbox.post code).1.pendingAction = code := by
  rw [pendingAction, post]
  simp only [UInt16.toUInt16_toUInt32]

theorem pendingAction_enqueue (code : UInt16) : (mailbox.enqueue code).pendingAction = ⟨code⟩ :=
  mailbox.pendingAction_post ⟨code⟩

/-- The code fills the whole slot. The other words are not touched. -/
theorem enqueue_eq (code : UInt16) :
    mailbox.enqueue code = { mailbox with action := code.toUInt32 } := rfl

/-- An empty drive request reads as zero, so zero stands for none. -/
theorem takeDriveRequest_getD :
    mailbox.takeDriveRequest.2.getD 0 = mailbox.driveRequest.toUInt16 := by
  by_cases hnone : mailbox.driveRequest.toUInt16 = 0
  · have htaken : mailbox.takeDriveRequest.2 = none := if_pos hnone
    rw [htaken, hnone]
    rfl
  · have htaken : mailbox.takeDriveRequest.2 = some mailbox.driveRequest.toUInt16 := if_neg hnone
    rw [htaken]
    rfl

end Mailbox

end DoorBus

import DoorBus.Agent.Basic
import DoorBus.Host.Table
import DoorBus.Text.Hex

/-!
# The Bridge of a Host

An agent on the main core, over the table that the host lends, which tells the
host's log what happens on the bus. Routine traffic is not logged.

## Main definitions

* `Event.logLine?`: The log line for an event.
* `HostBridge`: The agent and the table.
* `HostBridge.start`: Setting up.
* `HostBridge.poll`: A step, with its log lines.
-/

namespace DoorBus

/-- The log line for an event, unless it is routine. -/
def Event.logLine? : Event → Option String
  | connected => some "hcp: drive connected"
  | disconnected => some "hcp: drive disconnected"
  | identified words =>
    some ("hcp: drive id" ++
      String.join (words.toList.map fun word => " " ++ Hex.fixed 4 word.toNat))
  | driveRequest code => some ("hcp: drive requests action 0x" ++ Hex.fixed 4 code.toNat)
  | driveFault code => some ("hcp: drive exception 0x" ++ Hex.fixed 2 code.toNat)
  | sent _ action =>
    if action.isPending then
      some ("hcp: sent action 0x" ++ Hex.fixed 4 action.value.toNat)
    else
      none
  | statusRejected fault | responseRejected fault | frameDropped fault =>
    some ("hcp: frame discarded: " ++ fault.name)
  | completed _ | timedOut _ | statusUpdated _ | lateResponse => none

/-- The first line in the log of a host. -/
def Timing.startLine (timing : Timing) : String :=
  "hcp: bridge started, poll every " ++ toString timing.pollInterval.toNat ++ " ms"

/-- Hand lines to the log, if the host keeps one. -/
def HostTable.logAll {β : Type} (table : HostTable β) (lines : List String) (state : β) : β :=
  match table.log with
  | some log => lines.foldl (fun state line => log line state) state
  | none => state

/-- An agent on the main core over the table of a host. -/
structure HostBridge (β : Type) where
  /-- The table. -/
  table : HostTable β
  /-- The times that the direction is held for. -/
  transceiver : Transceiver
  /-- The agent. -/
  agent : Agent

namespace HostBridge

variable {β : Type}

/-- What the agent runs on. -/
def hardware (bridge : HostBridge β) : Hardware β :=
  bridge.transceiver.hardware bridge.table.circuit

/-- Set a bridge up: start out listening, write the empty snapshot, and tell
    the log. -/
def start (table : HostTable β) (timing : Timing) (mailbox : Mailbox) (state : β) :
    HostBridge β × Mailbox × β :=
  let state := Transceiver.attach table.circuit state
  let node := Node.mainCore timing mailbox state
  let bridge := { table, transceiver := .new timing.turnaround, agent := node.agent }
  (bridge, node.mailbox, table.logAll [timing.startLine] node.hardware)

/-- Service the bus once, and tell the log what happened. -/
def poll (bridge : HostBridge β) (mailbox : Mailbox) (state : β) :
    HostBridge β × Mailbox × β :=
  let (node, events) := Node.step bridge.hardware ⟨bridge.agent, mailbox, state⟩
  let state := bridge.table.logAll (events.filterMap Event.logLine?) node.hardware
  ({ bridge with agent := node.agent }, node.mailbox, state)

end HostBridge

end DoorBus

import DoorBus.Bench.HostEnd
import DoorBus.Bench.Loop
import DoorBus.Host.Firmware

/-!
# Rigs

A bench on which the bus may be run in several ways: by nobody, by an agent
over the transceiver of the bus, by the bridge of a host, or by the firmware
that a host program calls. The rest of the rig is the same each time: a host
end with its bus, a drive, and the mailbox under test. With the firmware that
mailbox lies elsewhere in memory, and the firmware only turns to it once it is
attached.

## Main definitions

* `Runner`: What runs the bus.
* `Rig`: The bench.
* `Rig.poll`, `Rig.service`, `Rig.advance`: The parts of a round.
* `Rig.rounds`: A number of rounds.
-/

namespace DoorBus

/-- What runs the bus on a rig. -/
inductive Runner
  /-- Nobody. -/
  | nobody
  /-- An agent over the transceiver of the bus. -/
  | agent (agent : Agent) (transceiver : Transceiver)
  /-- The bridge of a host. -/
  | bridge (bridge : HostBridge HostEnd)
  /-- The firmware that a host program calls. -/
  | firmware (firmware : Firmware HostEnd)

/-- A bench on which the bus may be run in several ways. -/
structure Rig where
  /-- The host, with the bus. -/
  host : HostEnd
  /-- The drive. -/
  drive : Drive
  /-- The mailbox, except with the firmware. -/
  mailbox : Mailbox
  /-- What runs the bus. -/
  runner : Runner := .nobody
  /-- Whether the host keeps a log. -/
  keepsLog : Bool := true
  /-- What happened, with the time at which the agent was called. -/
  events : Array (Millis × Event) := #[]

namespace Rig

/-- Where the mailbox lies in the memory of the firmware. -/
def regionAddress : MemoryAddress := 1

/-- The bus. -/
def bus (rig : Rig) : Bus :=
  rig.host.bus

/-- The rig with another state of its bus. -/
def withBus (rig : Rig) (bus : Bus) : Rig :=
  { rig with host := { rig.host with bus } }

/-- The table that the host lends. -/
def table (rig : Rig) : HostTable HostEnd :=
  HostEnd.table rig.keepsLog

/-- The mailbox under test. -/
def region (rig : Rig) : Mailbox :=
  match rig.runner with
  | .firmware firmware => firmware.memory regionAddress
  | _ => rig.mailbox

/-- The rig with another state of the mailbox under test. -/
def withRegion (rig : Rig) (mailbox : Mailbox) : Rig :=
  match rig.runner with
  | .firmware firmware =>
    { rig with runner := .firmware (firmware.writeMemory regionAddress mailbox) }
  | _ => { rig with mailbox }

/-! ## Setting up -/

/-- Let an agent run the bus, made by `make` from the mailbox and the bus. -/
def runAgent (rig : Rig) (transceiver : Transceiver) (make : Mailbox → Bus → Node Bus) : Rig :=
  let node := make rig.mailbox (Transceiver.attach Bus.circuit rig.bus)
  { rig.withBus node.hardware with
    mailbox := node.mailbox
    runner := .agent node.agent transceiver }

/-- Let the bridge of the host run the bus. -/
def runBridge (rig : Rig) (timing : Timing) : Rig :=
  let (bridge, mailbox, host) := HostBridge.start rig.table timing rig.mailbox rig.host
  { rig with host, mailbox, runner := .bridge bridge }

/-- Let the firmware run the bus, once a host program tells it to. -/
def runFirmware (rig : Rig) : Rig :=
  { rig with runner := .firmware { memory := fun _ => rig.mailbox } }

/-! ## Rounds -/

/-- Whatever runs the bus services it once. -/
def poll (rig : Rig) : Rig :=
  match rig.runner with
  | .nobody => rig
  | .agent agent transceiver =>
    let bench : Bench := ⟨⟨agent, rig.mailbox, rig.bus⟩, rig.drive⟩
    let (bench, events) := bench.poll transceiver
    { rig.withBus bench.node.hardware with
      drive := bench.drive
      mailbox := bench.node.mailbox
      runner := .agent bench.node.agent transceiver
      events := rig.events ++ events.map fun event => (rig.bus.now, event) }
  | .bridge bridge =>
    let (bridge, mailbox, host) := bridge.poll rig.mailbox rig.host
    { rig with host, mailbox, runner := .bridge bridge }
  | .firmware firmware =>
    let (firmware, host) := firmware.poll rig.host
    { rig with host, runner := .firmware firmware }

/-- The drive catches up. -/
def service (rig : Rig) : Except ArithmeticFault Rig := do
  let (drive, bus) ← rig.drive.service rig.bus
  return { rig.withBus bus with drive }

/-- The clock moves on. -/
def advance (rig : Rig) (span : Millis) : Rig :=
  rig.withBus (rig.bus.advance span)

/-- A number of rounds of runner, drive and clock. -/
def rounds (span : Millis) : Nat → Rig → Except ArithmeticFault Rig
  | 0, rig => return rig
  | times + 1, rig => do
    let rig ← rig.poll.service
    rounds span times (rig.advance span)

/-- Hand a frame to the drive a number of times, past the bus. Gives the last
    answer. -/
def handle (bytes : List UInt8) : Nat → Rig → Rig × Option (List UInt8)
  | 0, rig => (rig, none)
  | 1, rig =>
    let (drive, reply) := rig.drive.handle bytes
    ({ rig with drive }, reply)
  | times + 1, rig => handle bytes times { rig with drive := (rig.drive.handle bytes).1 }

/-- Forget what happened, the log, and the settings of the direction line. -/
def clear (rig : Rig) : Rig :=
  { rig with
    events := #[]
    host := { rig.host with lines := #[], settings := #[] } }

end Rig

end DoorBus

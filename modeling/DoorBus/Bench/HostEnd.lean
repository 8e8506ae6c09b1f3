import DoorBus.Bench.Bus
import DoorBus.Host.Bridge

/-!
# A Host on the Bench

The far end of a host table: a host that works on a bench bus, keeps a log,
and remembers how it was told to set the direction line. For tests its reports
on reads and writes can be replaced, in which case no byte is moved.

## Main definitions

* `HostEnd`: The state of the host.
* `HostEnd.table`: The table that it lends.
-/

namespace DoorBus

/-- A host on a bench bus. -/
structure HostEnd where
  /-- The bus. -/
  bus : Bus
  /-- How the direction line was set, first setting first. -/
  settings : Array Bool := #[]
  /-- The log. -/
  lines : Array String := #[]
  /-- Report on every write, in place of writing. -/
  writeReport : Option Int32 := none
  /-- Report on every read, in place of reading. -/
  readReport : Option Int32 := none
  deriving DecidableEq

namespace HostEnd

/-- The host reads. -/
def readLine (capacity : Nat) (host : HostEnd) : HostEnd × Int32 × List UInt8 :=
  match host.readReport with
  | some report => (host, report, [])
  | none =>
    let (bus, bytes) := host.bus.read capacity
    ({ host with bus }, .ofNat bytes.length, bytes)

/-- The host writes. -/
def writeLine (bytes : List UInt8) (host : HostEnd) : HostEnd × Int32 :=
  match host.writeReport with
  | some report => (host, report)
  | none =>
    match host.bus.write bytes with
    | (bus, .ok ()) => ({ host with bus }, .ofNat bytes.length)
    | (bus, .error _) => ({ host with bus }, -1)

/-- The host sets the direction line. -/
def setDirection (transmitting : Bool) (host : HostEnd) : HostEnd :=
  { host with
    bus := host.bus.setDirection transmitting
    settings := host.settings.push transmitting }

/-- The host takes a line for its log. -/
def log (line : String) (host : HostEnd) : HostEnd :=
  { host with lines := host.lines.push line }

/-- The table that the host lends, with or without a log. -/
def table (keepsLog : Bool) : HostTable HostEnd where
  readLine := readLine
  writeLine := writeLine
  setDirection := setDirection
  now host := host.bus.now
  sleep span host := { host with bus := host.bus.advance span }
  log := if keepsLog then some log else none

end HostEnd

end DoorBus

/-!
# Chips and Modes

The bus is run by one of two processors: the main core, next to the host
program, or a small core that goes on while the host sleeps. Only one of the
chips has the small core.

## Main definitions

* `Chip`: The chips.
* `Chip.hasSmallCore`: Whether the small core is there.
* `Mode`: Which processor runs the bus.
* `Pins`: How the line is wired to the chip.
-/

namespace DoorBus

/-- A chip that can run the bridge. -/
inductive Chip
  /-- The plain chip. -/
  | esp32
  /-- Variant S2. -/
  | esp32S2
  /-- Variant S3. -/
  | esp32S3
  /-- Variant C3. -/
  | esp32C3
  /-- Variant C6. -/
  | esp32C6
  /-- Variant H2. -/
  | esp32H2
  deriving DecidableEq, Repr

namespace Chip

/-- Every chip. -/
def all : List Chip :=
  [esp32, esp32S2, esp32S3, esp32C3, esp32C6, esp32H2]

/-- Spelling in stored text. -/
def name : Chip → String
  | esp32 => "Esp32"
  | esp32S2 => "Esp32S2"
  | esp32S3 => "Esp32S3"
  | esp32C3 => "Esp32C3"
  | esp32C6 => "Esp32C6"
  | esp32H2 => "Esp32H2"

/-- The chip of this spelling. -/
def ofName? (name : String) : Option Chip :=
  all.find? (·.name = name)

/-- Whether the chip has a small core with a line of its own. -/
def hasSmallCore (chip : Chip) : Bool :=
  chip = esp32C6

end Chip

/-- Which processor runs the bus. -/
inductive Mode
  /-- The small core; the host may sleep. -/
  | lowPower
  /-- The main core, next to the host. -/
  | highPerformance
  deriving DecidableEq, Repr

namespace Mode

/-- Every mode. -/
def all : List Mode :=
  [lowPower, highPerformance]

/-- Spelling in stored text. -/
def name : Mode → String
  | lowPower => "LowPower"
  | highPerformance => "HighPerformance"

/-- The mode of this spelling. -/
def ofName? (name : String) : Option Mode :=
  all.find? (·.name = name)

end Mode

/-- How the line is wired to the chip, by pin number. -/
structure Pins where
  /-- Transmits. -/
  tx : UInt8
  /-- Receives. -/
  rx : UInt8
  /-- Switches the line to transmit, if that is not automatic. -/
  flowControl : Option UInt8
  deriving DecidableEq, Repr

/-- The pins of the small core, with pin 2 to switch the line. -/
def Pins.standard : Pins where
  tx := 5
  rx := 4
  flowControl := some 2

end DoorBus

import DoorBus.Config.Chip
import DoorBus.Config.Line

/-!
# Configuration

What a bridge is set up with: the processor that runs the bus, the timing of
the polls, the line, and the pins. Not every combination works. `validate`
reports the first reason against one, in a fixed order.

## Main definitions

* `Timing`: How often the drive is polled, and how long anything may take.
* `Config`: The whole set-up.
* `ConfigError`: Why a set-up does not work.
* `Timing.validate`, `Config.validate`: The checks.
* `Config.resolveMode`: The processor to use on a chip.
-/

namespace DoorBus

/-- Why a set-up does not work. -/
inductive ConfigError
  /-- The small core is asked for on a chip without one. -/
  | lowPowerUnsupported
  /-- No time between polls. -/
  | zeroPollInterval
  /-- An answer may take as long as the time between polls. -/
  | timeoutExceedsInterval
  /-- The link would count as lost before anything was missed. -/
  | zeroDisconnectThreshold
  /-- The drive does not speak these line settings. -/
  | unsupportedLine
  /-- The pin that switches the line is one of its data pins. -/
  | pinConflict
  deriving DecidableEq, Repr

namespace ConfigError

/-- Every reason. -/
def all : List ConfigError :=
  [lowPowerUnsupported, zeroPollInterval, timeoutExceedsInterval, zeroDisconnectThreshold,
    unsupportedLine, pinConflict]

/-- Spelling in reports. -/
def name : ConfigError → String
  | lowPowerUnsupported => "LowPowerUnsupported"
  | zeroPollInterval => "ZeroPollInterval"
  | timeoutExceedsInterval => "TimeoutExceedsInterval"
  | zeroDisconnectThreshold => "ZeroDisconnectThreshold"
  | unsupportedLine => "UnsupportedUart"
  | pinConflict => "PinConflict"

end ConfigError

/-- How often the drive is polled, and how long anything may take. -/
structure Timing where
  /-- Time from one poll to the next. -/
  pollInterval : Millis
  /-- Time that an answer may take. -/
  responseTimeout : Millis
  /-- Number of polls in a row without an answer that loses the link. -/
  disconnectThreshold : UInt8
  /-- Time that the line stays switched to transmit behind a request. -/
  turnaround : Millis
  /-- Silence that ends an unfinished frame. -/
  frameGap : Millis
  deriving DecidableEq, Repr

namespace Timing

/-- The usual timing of a mode. The small core polls less often. -/
def ofMode (mode : Mode) : Timing where
  pollInterval := match mode with
    | .lowPower => 1000
    | .highPerformance => 500
  responseTimeout := 200
  disconnectThreshold := 3
  turnaround := 2
  frameGap := 10

/-- The usual timing where no mode is given. -/
def standard : Timing :=
  ofMode .lowPower

/-- The first reason against a timing, if there is one. -/
def validate (timing : Timing) : Except ConfigError Unit :=
  if timing.pollInterval = 0 then
    .error .zeroPollInterval
  else if timing.pollInterval ≤ timing.responseTimeout then
    .error .timeoutExceedsInterval
  else if timing.disconnectThreshold = 0 then
    .error .zeroDisconnectThreshold
  else
    .ok ()

end Timing

/-- What a bridge is set up with. -/
structure Config where
  /-- The processor that runs the bus. -/
  mode : Mode
  /-- Timing of the polls. -/
  timing : Timing
  /-- Settings of the line. -/
  line : LineSettings
  /-- Wiring of the line. -/
  pins : Pins
  deriving DecidableEq, Repr

namespace Config

/-- The usual set-up of a mode. -/
def ofMode (mode : Mode) : Config where
  mode := mode
  timing := .ofMode mode
  line := .standard
  pins := .standard

/-- The usual set-up where no mode is given. -/
def standard : Config :=
  ofMode .lowPower

/-- The processor to use on a chip: the one asked for, else the small core if
    there is one. -/
def resolveMode (requested : Option Mode) (chip : Chip) : Except ConfigError Mode :=
  match requested with
  | some .lowPower =>
    if chip.hasSmallCore then .ok .lowPower else .error .lowPowerUnsupported
  | some .highPerformance => .ok .highPerformance
  | none => .ok (if chip.hasSmallCore then .lowPower else .highPerformance)

/-- The usual set-up on a chip. -/
def ofChip (requested : Option Mode) (chip : Chip) : Except ConfigError Config :=
  (resolveMode requested chip).map ofMode

/-- The first reason against a set-up on a chip, if there is one. -/
def validate (config : Config) (chip : Chip) : Except ConfigError Unit := do
  if config.mode = .lowPower ∧ ¬chip.hasSmallCore then
    throw .lowPowerUnsupported
  config.timing.validate
  if config.line ≠ .standard then
    throw .unsupportedLine
  if config.pins.flowControl = some config.pins.tx ∨
      config.pins.flowControl = some config.pins.rx then
    throw .pinConflict

end Config

end DoorBus

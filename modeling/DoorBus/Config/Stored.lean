import DoorBus.Config.Basic
import DoorBus.Door.Action
import DoorBus.Door.StateCode
import DoorBus.Text.Json.Reader

/-!
# Stored Configuration

A set-up is stored as a JSON object. The settings of the line are not stored:
they are always those that the drive speaks. The pin that switches the line
may be missing or null.

Reading is strict about what it knows and lenient about the rest. Each known
field must occur once and hold a number in its range; unknown fields are
skipped. A record may also be given as the plain list of its fields in order,
and a word as an object that gives null under the word.

## Main definitions

* `Stored.writeWord`, `Stored.readWord?`: A word from a fixed list.
* `Config.toJson`, `Config.ofJson?`: A set-up as a value.
* `Config.toText`, `Config.ofText?`: A set-up as text.
-/

namespace DoorBus

namespace Stored

/-! ## Words -/

/-- A word as a value. -/
def writeWord (word : String) : Json :=
  .string (some word)

/-- The word that a value is, through the list that knows it. -/
def readWord? {α : Type} (ofName? : String → Option α) : Json → Option α
  | .string (some word) => ofName? word
  | .object [(some word, .null)] => ofName? word
  | _ => none

/-- The word that a text is. -/
def wordOfText? {α : Type} (ofName? : String → Option α) (text : String) : Option α :=
  (Json.ofText? text).bind (readWord? ofName?)

/-! ## Numbers -/

/-- A number of at most 32 bits as a value. -/
def writeWord32 (value : UInt32) : Json :=
  .natural value.toNat

/-- A number of at most 8 bits as a value. -/
def writeByte (value : UInt8) : Json :=
  .natural value.toNat

/-- The number of at most 32 bits that a value is. -/
def readWord32? : Json → Option UInt32
  | .natural value => if value < UInt32.size then some (.ofNat value) else none
  | _ => none

/-- The number of at most 8 bits that a value is. -/
def readByte? : Json → Option UInt8
  | .natural value => if value < UInt8.size then some (.ofNat value) else none
  | _ => none

/-- The number of at most 8 bits that a value is, or none for null. -/
def readOptionalByte? : Json → Option (Option UInt8)
  | .null => some none
  | json => (readByte? json).map some

/-! ## Records -/

/-- A record as a value. -/
def writeRecord (fields : List (String × Json)) : Json :=
  .object (fields.map fun (name, value) => (some name, value))

/-- The values under a name. -/
def valuesOf (name : String) (members : List (Option String × Json)) : List Json :=
  members.filterMap fun (other, value) => if other = some name then some value else none

/-- The value of a field that may be missing, but not occur twice. -/
def field? (name : String) (members : List (Option String × Json)) : Option (Option Json) :=
  match valuesOf name members with
  | [] => some none
  | [value] => some (some value)
  | _ => none

/-- The fields of a record, each of which may be missing. All names must be
    readable, also those that are not known. -/
def readRecord? (names : List String) : Json → Option (List (Option Json))
  | .object members =>
    if members.all fun member => member.1.isSome then
      names.mapM fun name => field? name members
    else
      none
  | .array values =>
    if values.length = names.length then some (values.map some) else none
  | _ => none

end Stored

open Stored

/-! ## The set-up -/

namespace Timing

/-- Names of the stored fields. -/
def fieldNames : List String :=
  ["poll_interval_ms", "response_timeout_ms", "disconnect_threshold", "turnaround_ms",
    "frame_gap_ms"]

/-- A timing as a value. -/
def toJson (timing : Timing) : Json :=
  writeRecord (fieldNames.zip
    [writeWord32 timing.pollInterval, writeWord32 timing.responseTimeout,
      writeByte timing.disconnectThreshold, writeWord32 timing.turnaround,
      writeWord32 timing.frameGap])

/-- The timing that a value is. -/
def ofJson? (json : Json) : Option Timing := do
  match ← readRecord? fieldNames json with
  | [some poll, some response, some threshold, some turnaround, some gap] =>
    return {
      pollInterval := ← readWord32? poll
      responseTimeout := ← readWord32? response
      disconnectThreshold := ← readByte? threshold
      turnaround := ← readWord32? turnaround
      frameGap := ← readWord32? gap }
  | _ => none

end Timing

namespace Pins

/-- Names of the stored fields. -/
def fieldNames : List String :=
  ["tx", "rx", "flow_control"]

/-- The wiring as a value. -/
def toJson (pins : Pins) : Json :=
  writeRecord (fieldNames.zip
    [writeByte pins.tx, writeByte pins.rx, (pins.flowControl.map writeByte).getD .null])

/-- The wiring that a value is. -/
def ofJson? (json : Json) : Option Pins := do
  match ← readRecord? fieldNames json with
  | [some tx, some rx, flowControl] =>
    return {
      tx := ← readByte? tx
      rx := ← readByte? rx
      flowControl := ← readOptionalByte? (flowControl.getD .null) }
  | _ => none

end Pins

namespace Config

/-- Names of the stored fields. -/
def fieldNames : List String :=
  ["mode", "timing", "pins"]

/-- A set-up as a value. -/
def toJson (config : Config) : Json :=
  writeRecord (fieldNames.zip
    [writeWord config.mode.name, config.timing.toJson, config.pins.toJson])

/-- The set-up that a value is. -/
def ofJson? (json : Json) : Option Config := do
  match ← readRecord? fieldNames json with
  | [some mode, some timing, some pins] =>
    return {
      mode := ← readWord? Mode.ofName? mode
      timing := ← Timing.ofJson? timing
      line := .standard
      pins := ← Pins.ofJson? pins }
  | _ => none

/-- A set-up as text. -/
def toText (config : Config) : String :=
  config.toJson.toText

/-- The set-up that a text is. -/
def ofText? (text : String) : Option Config :=
  (Json.ofText? text).bind ofJson?

end Config

end DoorBus

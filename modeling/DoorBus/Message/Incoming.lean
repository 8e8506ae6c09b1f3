import DoorBus.Message.Basic

/-!
# Frames from the Drive

The bridge sorts a received frame by its address and function before it reads
the rest. Only an exception is read at once: its payload is a single code.

## Main definitions

* `Incoming`: A received frame by what it is.
* `Incoming.ofFrame`: Sorting.
-/

namespace DoorBus

/-- A received frame by what it is. -/
inductive Incoming
  /-- A write to everybody. -/
  | broadcast (frame : Frame)
  /-- An answer to a poll. -/
  | response (frame : Frame)
  /-- An exception in answer to a poll. -/
  | exception (code : UInt8)
  deriving DecidableEq

namespace Incoming

/-- Sort a received frame. -/
def ofFrame (frame : Frame) : Except MessageError Incoming :=
  if frame.address = Address.broadcast ∧ frame.function = Function.writeBlock then
    .ok (.broadcast frame)
  else if frame.address = Address.drive ∧ frame.function = Function.readWriteBlock then
    .ok (.response frame)
  else if frame.address = Address.drive ∧ frame.function = Function.pollException then
    match frame.payload with
    | [code] => .ok (.exception code)
    | _ => .error .malformedResponse
  else
    .error .unexpectedFrame

end Incoming

end DoorBus

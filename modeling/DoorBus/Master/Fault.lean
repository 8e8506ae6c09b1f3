import DoorBus.Message.Basic

/-!
# Bus Faults

What can go wrong between the bridge and the drive, as a host hears of it.
None of it stops the bridge.

## Main definitions

* `BusFault`: The faults.
* `BusFault.ofFrameError`, `BusFault.ofMessageError`: Where they come from.
-/

namespace DoorBus

/-- What can go wrong on the bus. -/
inductive BusFault
  /-- An unfinished frame was given up. -/
  | truncated
  /-- A frame failed its check. -/
  | checksumMismatch
  /-- A status broadcast had an unexpected layout. -/
  | malformedStatus
  /-- An answer did not fit the request. -/
  | malformedResponse
  /-- An answer did not come in time. -/
  | responseTimeout
  /-- The line could not be read or written. -/
  | transport
  deriving DecidableEq, Repr

namespace BusFault

/-- Every fault. -/
def all : List BusFault :=
  [truncated, checksumMismatch, malformedStatus, malformedResponse, responseTimeout, transport]

/-- Spelling in reports and log lines. -/
def name : BusFault → String
  | truncated => "Truncated"
  | checksumMismatch => "ChecksumMismatch"
  | malformedStatus => "MalformedStatus"
  | malformedResponse => "MalformedResponse"
  | responseTimeout => "ResponseTimeout"
  | transport => "Transport"

/-- The fault that a frame error amounts to. The last two only concern frames
    that the bridge itself sends. -/
def ofFrameError : FrameError → BusFault
  | .truncated => truncated
  | .checksumMismatch => checksumMismatch
  | .payloadTooLarge | .bufferTooSmall => transport

/-- The fault that a message error amounts to. -/
def ofMessageError : MessageError → BusFault
  | .malformedStatus | .unknownRegister => malformedStatus
  | .malformedResponse | .malformedRequest | .unexpectedFrame => malformedResponse

end BusFault

end DoorBus

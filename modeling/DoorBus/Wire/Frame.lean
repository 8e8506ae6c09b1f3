import DoorBus.Wire.Checksum
import DoorBus.Wire.Code

/-!
# Frames

The unit of transmission: an address, a function, a payload of at most 255
bytes, and the check of all of these, low byte first.

The payload bound is part of the type, so encoding into the largest buffer
cannot fail. Decoding asks for at least one payload byte, although a frame
without payload can be built and encoded.

## Main definitions

* `Frame`: A frame, without its check.
* `FrameError`: Why a frame cannot be built, written or read.
* `Frame.make`: A frame, if the payload fits.
* `Frame.toBytes`: The frame on the wire.
* `Frame.encodeInto`, `Frame.writeInto`: Encoding into a given buffer.
* `Frame.encode`: Encoding into a buffer of the largest size.
* `Frame.decode`: The frame that a run of bytes is.
-/

namespace DoorBus

/-- Why a frame cannot be built, written or read. -/
inductive FrameError
  /-- Too few bytes to form a frame. -/
  | truncated
  /-- The trailing check is not that of the bytes before it. -/
  | checksumMismatch
  /-- More payload than a frame can carry. -/
  | payloadTooLarge
  /-- The buffer does not hold the encoded frame. -/
  | bufferTooSmall
  deriving DecidableEq, Repr

namespace FrameError

/-- Every error. -/
def all : List FrameError :=
  [truncated, checksumMismatch, payloadTooLarge, bufferTooSmall]

/-- Spelling in reports. -/
def name : FrameError → String
  | truncated => "Truncated"
  | checksumMismatch => "ChecksumMismatch"
  | payloadTooLarge => "PayloadTooLarge"
  | bufferTooSmall => "BufferTooSmall"

end FrameError

namespace Frame

/-- Most payload bytes a frame can carry. -/
def maxPayload : Nat := 255

/-- Length of the shortest run of bytes that is read as a frame: address,
    function, one payload byte and the check. -/
def minLength : Nat := 5

/-- Length of the longest encoded frame. -/
def maxLength : Nat := 2 + maxPayload + 2

end Frame

/-- A frame, without its check. -/
structure Frame where
  /-- Bus address. -/
  address : UInt8
  /-- Function code. -/
  function : UInt8
  /-- What the function works on. -/
  payload : List UInt8
  payload_le : payload.length ≤ Frame.maxPayload
  deriving DecidableEq

namespace Frame

/-- The frame with this payload, if a frame can carry it. -/
def make (address function : UInt8) (payload : List UInt8) : Except FrameError Frame :=
  if fits : payload.length ≤ maxPayload then
    .ok ⟨address, function, payload, fits⟩
  else
    .error .payloadTooLarge

/-- Whether this is an exception answer. -/
def isException (frame : Frame) : Bool :=
  frame.function &&& Function.exceptionFlag != 0

/-- Number of bytes the frame takes on the wire. -/
def encodedLength (frame : Frame) : Nat :=
  2 + frame.payload.length + 2

/-- What the check covers. -/
def body (frame : Frame) : List UInt8 :=
  frame.address :: frame.function :: frame.payload

/-- The check of a body as it stands on the wire, low byte first. -/
def trailer (body : List UInt8) : List UInt8 :=
  [(Checksum.over body).toUInt8, (Checksum.over body >>> 8).toUInt8]

/-- The frame on the wire. -/
def toBytes (frame : Frame) : List UInt8 :=
  frame.body ++ trailer frame.body

/-- Encode at the start of a buffer. Gives the buffer as it is then, and the
    number of bytes written. What lies behind the frame stays as it was, and so
    does all of a buffer that the frame does not fit into. -/
def encodeInto (frame : Frame) (buffer : List UInt8) : List UInt8 × Except FrameError Nat :=
  if buffer.length < frame.encodedLength then
    (buffer, .error .bufferTooSmall)
  else
    (frame.toBytes ++ buffer.drop frame.encodedLength, .ok frame.encodedLength)

/-- The same, giving the buffer only if the frame was written. -/
def writeInto (frame : Frame) (buffer : List UInt8) : Except FrameError (Nat × List UInt8) :=
  match frame.encodeInto buffer with
  | (buffer, .ok written) => .ok (written, buffer)
  | (_, .error error) => .error error

/-- Encode into a buffer of the largest size and keep what was written. -/
def encode (frame : Frame) : Except FrameError (List UInt8) :=
  (frame.writeInto (List.replicate maxLength 0)).map fun (written, buffer) => buffer.take written

/-- The frame that these bytes are, if their length is possible and the last
    two are the check of the others. -/
def decode (bytes : List UInt8) : Except FrameError Frame :=
  if bytes.length < minLength then
    .error .truncated
  else if maxLength < bytes.length then
    .error .payloadTooLarge
  else
    let checked := bytes.take (bytes.length - 2)
    if trailer checked = bytes.drop (bytes.length - 2) then
      match checked with
      | address :: function :: payload => make address function payload
      | _ => .error .truncated
    else
      .error .checksumMismatch

end Frame

end DoorBus

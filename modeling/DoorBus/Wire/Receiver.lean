import DoorBus.Wire.Extent

/-!
# Receiving Frames

The bus gives no alignment: the receiver may start to listen in the middle of
a frame, or hear noise between frames. It therefore keeps the bytes that may
still belong to a frame and, whenever a byte arrives, tries every place in
them where a frame may start. A frame can only be completed by the byte that
has just arrived, and the one that started first wins.

Bytes are given up in three places: those at the front that cannot start a
frame, the oldest one of a full buffer, and the first one of a frame that is
complete but fails its check.

## Main definitions

* `Receiver`: The bytes kept.
* `Receiver.feed`: One byte arrives.
* `Receiver.feedAll`: A run of bytes arrives.
* `Receiver.flush`: The bus has been silent, an unfinished frame is given up.
* `Receiver.reset`: Everything is given up.
-/

namespace DoorBus

/-- A receiver, by the bytes that may still belong to a frame. -/
structure Receiver where
  /-- Bytes kept, oldest first. -/
  buffer : List UInt8 := []
  deriving DecidableEq, Repr

namespace Receiver

/-- The bytes from the first place on where a frame may start. -/
def dropImpossible : List UInt8 → List UInt8
  | [] => []
  | byte :: rest =>
    if extent (byte :: rest) = .impossible then dropImpossible rest else byte :: rest

/-- The frame that exactly fills a run of bytes. -/
def whole? (bytes : List UInt8) : Option Frame :=
  match extent bytes with
  | .known length => if length = bytes.length then (Frame.decode bytes).toOption else none
  | _ => none

/-- The frame that ends with the last byte, the longest one if there are
    several. -/
def completed? : List UInt8 → Option Frame
  | [] => none
  | byte :: rest => (whole? (byte :: rest)).orElse fun _ => completed? rest

/-- Number of bytes kept. -/
def pending (receiver : Receiver) : Nat :=
  receiver.buffer.length

/-- Give up everything. -/
def reset (_ : Receiver) : Receiver :=
  {}

/-- Give up an unfinished frame. It is an error if there was one. -/
def flush (receiver : Receiver) : Receiver × Except FrameError Unit :=
  if receiver.buffer.isEmpty then (receiver, .ok ()) else ({}, .error .truncated)

/-- The buffer with one more byte. A full one gives up its oldest byte. -/
def accept (buffer : List UInt8) (byte : UInt8) : List UInt8 :=
  if buffer.length = Frame.maxLength then buffer.tail ++ [byte] else buffer ++ [byte]

/-- One byte arrives. Gives the frame that it completes, if any, and reports
    a frame at the front that is complete but fails its check. -/
def feed (receiver : Receiver) (byte : UInt8) : Receiver × Except FrameError (Option Frame) :=
  let held := dropImpossible (accept receiver.buffer byte)
  match completed? held with
  | some frame => ({}, .ok (some frame))
  | none =>
    -- The bytes at the front fill a frame, and yet they are none: the check failed.
    if extent held = .known held.length then
      (⟨dropImpossible held.tail⟩, .error .checksumMismatch)
    else
      (⟨held⟩, .ok none)

/-- A run of bytes arrives. Gives what each byte led to, in order. -/
def feedAll (receiver : Receiver) :
    List UInt8 → Receiver × List (Except FrameError (Option Frame))
  | [] => (receiver, [])
  | byte :: rest =>
    let (receiver, result) := receiver.feed byte
    let (receiver, results) := receiver.feedAll rest
    (receiver, result :: results)

end Receiver

end DoorBus

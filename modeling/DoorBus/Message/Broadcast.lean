import DoorBus.Message.Basic

/-!
# Status Broadcasts

On its own the drive writes the status block to everybody. The payload is, in
this order: start and length of the block, number of bytes, the registers.

## Main definitions

* `Broadcast`: A status broadcast.
* `Broadcast.toFrame`: Its frame.
* `Broadcast.ofFrame`: The broadcast that a frame is.
* `Broadcast.status`: The status in a broadcast.
* `DoorStatus.ofFrame`: The status that a frame broadcasts.
-/

namespace DoorBus

/-- A status broadcast. -/
structure Broadcast where
  /-- The status block. -/
  registers : Vector UInt16 DoorStatus.registerCount
  deriving DecidableEq, Repr

namespace Broadcast

/-- What stands in the payload. -/
def payload (broadcast : Broadcast) : List UInt8 :=
  Word.bytes Block.status ++ Word.bytes (UInt16.ofNat DoorStatus.registerCount) ++
    [UInt8.ofNat (DoorStatus.registerCount * 2)] ++ Word.toBytes broadcast.registers.toList

/-- The frame of a broadcast. -/
def toFrame (broadcast : Broadcast) : Except FrameError Frame :=
  Frame.make Address.broadcast Function.writeBlock broadcast.payload

/-- A byte run of the right length holds the status block. -/
def block (data : List UInt8) (exact : data.length = DoorStatus.registerCount * 2) :
    Vector UInt16 DoorStatus.registerCount :=
  ⟨(Word.ofBytes data).toArray, by
    rw [List.size_toArray, Word.length_ofBytes, exact, Nat.mul_div_cancel _ (by decide)]⟩

/-- The broadcast that a frame is. -/
def ofFrame (frame : Frame) : Except MessageError Broadcast :=
  if frame.address ≠ Address.broadcast ∨ frame.function ≠ Function.writeBlock then
    .error .unexpectedFrame
  else
    match frame.payload with
    | s₀ :: s₁ :: q₀ :: q₁ :: count :: data =>
      -- The place is looked at before the layout, which depends on it.
      if Word.join s₀ s₁ ≠ Block.status then
        .error .unknownRegister
      else if fits : (Word.join q₀ q₁).toNat = DoorStatus.registerCount ∧
          count.toNat = DoorStatus.registerCount * 2 ∧
          data.length = DoorStatus.registerCount * 2 then
        .ok ⟨block data fits.2.2⟩
      else
        .error .malformedStatus
    | _ => .error .malformedStatus

/-- The status in a broadcast. -/
def status (broadcast : Broadcast) : DoorStatus :=
  .ofRegisters broadcast.registers

end Broadcast

/-- The status that a frame broadcasts. -/
def DoorStatus.ofFrame (frame : Frame) : Except MessageError DoorStatus :=
  (Broadcast.ofFrame frame).map Broadcast.status

end DoorBus

import DoorBus.Door.Action
import DoorBus.Message.Basic

/-!
# Poll Requests

The bridge reads the answer block and, in the same frame, writes the action
code. The payload is, in this order: start and length of the block read,
start and length of the block written, number of bytes written, the action
code.

## Main definitions

* `Request`: A poll request.
* `Request.toFrame`: Its frame.
* `Request.ofFrame`: The request that a frame is.
-/

namespace DoorBus

/-- A poll request. -/
structure Request where
  /-- What is asked. -/
  kind : PollKind
  /-- The code that travels with it. -/
  action : ActionCode
  deriving DecidableEq, Repr

namespace Request

/-- What stands in the payload. -/
def payload (request : Request) : List UInt8 :=
  Word.bytes Block.poll ++ Word.bytes request.kind.readQuantity ++
    Word.bytes Block.action ++ Word.bytes 1 ++ [2] ++ Word.bytes request.action.value

/-- The frame of a request. -/
def toFrame (request : Request) : Except FrameError Frame :=
  Frame.make Address.drive Function.readWriteBlock request.payload

/-- The request that a frame is, as a drive sees it. -/
def ofFrame (frame : Frame) : Except MessageError Request :=
  if frame.address ≠ Address.drive ∨ frame.function ≠ Function.readWriteBlock then
    .error .unexpectedFrame
  else
    match frame.payload with
    | [r₀, r₁, q₀, q₁, w₀, w₁, n₀, n₁, count, a₀, a₁] =>
      if Word.join r₀ r₁ ≠ Block.poll ∨ Word.join w₀ w₁ ≠ Block.action then
        .error .unknownRegister
      else if Word.join n₀ n₁ ≠ 1 ∨ count ≠ 2 then
        .error .malformedRequest
      else
        match PollKind.ofReadQuantity? (Word.join q₀ q₁) with
        | some kind => .ok ⟨kind, ⟨Word.join a₀ a₁⟩⟩
        | none => .error .malformedRequest
    | _ => .error .malformedRequest

end Request

end DoorBus

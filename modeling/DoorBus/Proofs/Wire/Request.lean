import DoorBus.Message.Request
import DoorBus.Proofs.Wire.Codec
import DoorBus.Proofs.Wire.Word

/-!
# Requests on the Wire

A poll request has a fixed number of bytes, so that building and encoding it
cannot fail, whatever the kind and the code. And it can be read back: of the
bytes that go to the line, those of the action field are the code that the
request was built with, and no other code gives these bytes.

## Main definitions

* `Request.frame`: The frame of a request.
* `Request.bytes`: The request on the wire.
* `Request.ofBytes?`: The request that a run of bytes is.

## Theorems

* `encode_toFrame`: Encoding a request does not fail.
* `ofFrame_frame`, `ofBytes_bytes`: A request is read back.
-/

namespace DoorBus

namespace Request

theorem length_payload (request : Request) : request.payload.length = 11 := rfl

/-- The frame of a request. -/
def frame (request : Request) : Frame :=
  ⟨Address.drive, Function.readWriteBlock, request.payload,
    Nat.le_trans (Nat.le_of_eq request.length_payload) (by decide)⟩

/-- The request on the wire. -/
def bytes (request : Request) : List UInt8 :=
  request.frame.toBytes

theorem toFrame_eq_ok (request : Request) : request.toFrame = .ok request.frame :=
  Frame.make_eq_ok _ _ _ _

/-- A request always has room in a frame, and the frame in a buffer. -/
theorem encode_toFrame (request : Request) :
    request.toFrame.bind Frame.encode = .ok request.bytes := by
  rw [toFrame_eq_ok, Except.bind]
  exact Frame.encode_eq_ok _

theorem ofReadQuantity_readQuantity (kind : PollKind) :
    PollKind.ofReadQuantity? kind.readQuantity = some kind := by
  cases kind <;> rfl

/-- A drive sees the request that the bridge has sent. -/
theorem ofFrame_frame (request : Request) : ofFrame request.frame = .ok request := by
  have hpayload : request.frame.payload = [Word.high Block.poll, Word.low Block.poll,
      Word.high request.kind.readQuantity, Word.low request.kind.readQuantity,
      Word.high Block.action, Word.low Block.action, Word.high 1, Word.low 1, 2,
      Word.high request.action.value, Word.low request.action.value] := rfl
  have hheader : ¬(request.frame.address ≠ Address.drive ∨
      request.frame.function ≠ Function.readWriteBlock) :=
    not_or.mpr ⟨fun hne => hne rfl, fun hne => hne rfl⟩
  rw [ofFrame, if_neg hheader, hpayload]
  simp only [Word.join_high_low, ne_eq, not_true_eq_false, or_self, if_false,
    ofReadQuantity_readQuantity]

/-- The request that a run of bytes is. -/
def ofBytes? (bytes : List UInt8) : Option Request :=
  match Frame.decode bytes with
  | .ok frame => (ofFrame frame).toOption
  | .error _ => none

/-- A request is read back from its bytes. -/
theorem ofBytes_bytes (request : Request) : ofBytes? request.bytes = some request := by
  have hpayload : request.frame.payload ≠ [] := List.cons_ne_nil _ _
  rw [ofBytes?, bytes, Frame.decode_toBytes request.frame hpayload]
  simp only [ofFrame_frame]
  rfl

end Request

end DoorBus

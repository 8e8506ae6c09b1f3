import DoorBus.Proofs.Wire.Delivery
import DoorBus.Proofs.Wire.Request

/-!
# Messages and Their Frames

A message is read from exactly one frame, the one it is sent as.

The layouts repeat themselves. A broadcast says three times how many registers
follow, by the quantity, by the byte count and by its own length, and a request
names two blocks that are always the same. A reader that left one of these
unchecked would take frames that nobody sends for messages. So the question is
not only whether a message is read back from its frame, but also whether
nothing else is read as it.

For a response there is one condition more. A response can be built with fewer
registers than its kind asks for. It has a frame, but is not read back from it,
since the reader knows what it asked.

## Main definitions

* `Frame.sent`: What a frame is after a trip over the wire.

## Theorems

* `Request.ofFrame_iff`, `Broadcast.ofFrame_iff`, `Response.ofFrame_iff`: Which
  frames are read as a message.
* `sent_of_payload`: The wire does not alter a frame with a payload.
* `messages_exact`: The three readers, with the trip over the wire.
-/

namespace DoorBus

namespace Frame

theorem make_self (frame : Frame) :
    make frame.address frame.function frame.payload = .ok frame :=
  make_eq_ok _ _ _ frame.payload_le

/-- What a frame is after it was encoded, sent and decoded. -/
def sent (frame : Frame) : Except FrameError Frame :=
  frame.encode.bind decode

/-- The wire does not alter a frame with a payload. Without one the frame is too short
    to be decoded. -/
theorem sent_of_payload {frame : Frame} (h : frame.payload ≠ []) : frame.sent = .ok frame := by
  rw [sent, encode_eq_ok, Except.bind]
  exact decode_toBytes frame h

/-- The header that a reader asks for is there if the reader does not refuse it. -/
theorem header_of_ok {α : Type} {frame : Frame} {address function : UInt8} {value : α}
    {read : Except MessageError α}
    (h : (if frame.address ≠ address ∨ frame.function ≠ function then
      .error .unexpectedFrame else read) = .ok value) :
    frame.address = address ∧ frame.function = function ∧ read = .ok value := by
  by_cases hheader : frame.address ≠ address ∨ frame.function ≠ function
  · rw [if_pos hheader] at h
    exact absurd h (by simp only [reduceCtorEq, not_false_eq_true])
  · rw [if_neg hheader] at h
    rw [not_or, Decidable.not_not, Decidable.not_not] at hheader
    exact ⟨hheader.1, hheader.2, h⟩

end Frame

/-! ## Requests -/

/-- A kind is found by the quantity that it reads. -/
theorem PollKind.readQuantity_of_found {quantity : UInt16} {kind : PollKind}
    (h : ofReadQuantity? quantity = some kind) : kind.readQuantity = quantity := by
  have hfound := List.find?_some h
  simp only [decide_eq_true_eq] at hfound
  exact hfound

namespace Request

/-- A frame that is read as a request has the payload of that request. -/
theorem payload_of_ofFrame {frame : Frame} {request : Request} (h : ofFrame frame = .ok request) :
    frame.address = Address.drive ∧ frame.function = Function.readWriteBlock ∧
      frame.payload = request.payload := by
  rw [ofFrame] at h
  rcases Frame.header_of_ok h with ⟨haddress, hfunction, hread⟩
  refine ⟨haddress, hfunction, ?_⟩
  split at hread
  case h_2 => exact absurd hread (by simp only [reduceCtorEq, not_false_eq_true])
  case h_1 r₀ r₁ q₀ q₁ w₀ w₁ n₀ n₁ count a₀ a₁ hpayload =>
      by_cases hblocks : Word.join r₀ r₁ ≠ Block.poll ∨ Word.join w₀ w₁ ≠ Block.action
      · rw [if_pos hblocks] at hread
        exact absurd hread (by simp only [reduceCtorEq, not_false_eq_true])
      rw [if_neg hblocks] at hread
      by_cases hwritten : Word.join n₀ n₁ ≠ 1 ∨ count ≠ 2
      · rw [if_pos hwritten] at hread
        exact absurd hread (by simp only [reduceCtorEq, not_false_eq_true])
      rw [if_neg hwritten] at hread
      rw [not_or, Decidable.not_not, Decidable.not_not] at hblocks hwritten
      cases hkind : PollKind.ofReadQuantity? (Word.join q₀ q₁) with
      | none =>
          rw [hkind] at hread
          exact absurd hread (by simp only [reduceCtorEq, not_false_eq_true])
      | some kind =>
          rw [hkind] at hread
          simp only [Except.ok.injEq] at hread
          -- Every field is a register that was compared with the one it has to be.
          rw [hpayload, ← hread, payload, PollKind.readQuantity_of_found hkind, ← hblocks.1,
            ← hblocks.2, ← hwritten.1, hwritten.2]
          simp only [Word.bytes_join]
          rfl

/-- A reader that accepts a frame has compared every byte of it, so the frame is the
    one that the request is sent as. -/
theorem ofFrame_iff (frame : Frame) (request : Request) :
    ofFrame frame = .ok request ↔ request.toFrame = .ok frame := by
  constructor
  · intro h
    rcases payload_of_ofFrame h with ⟨haddress, hfunction, hpayload⟩
    rw [toFrame, ← haddress, ← hfunction, ← hpayload]
    exact frame.make_self
  · intro h
    rw [toFrame_eq_ok, Except.ok.injEq] at h
    rw [← h]
    exact ofFrame_frame request

end Request

/-! ## Broadcasts -/

namespace Broadcast

/-- A frame that is read as a broadcast has the payload of that broadcast. -/
theorem payload_of_ofFrame {frame : Frame} {broadcast : Broadcast}
    (h : ofFrame frame = .ok broadcast) :
    frame.address = Address.broadcast ∧ frame.function = Function.writeBlock ∧
      frame.payload = broadcast.payload := by
  rw [ofFrame] at h
  rcases Frame.header_of_ok h with ⟨haddress, hfunction, hread⟩
  refine ⟨haddress, hfunction, ?_⟩
  split at hread
  case h_2 => exact absurd hread (by simp only [reduceCtorEq, not_false_eq_true])
  case h_1 s₀ s₁ q₀ q₁ count data hpayload =>
      by_cases hblock : Word.join s₀ s₁ ≠ Block.status
      · rw [if_pos hblock] at hread
        exact absurd hread (by simp only [reduceCtorEq, not_false_eq_true])
      rw [if_neg hblock] at hread
      rw [Decidable.not_not] at hblock
      by_cases hfits : (Word.join q₀ q₁).toNat = DoorStatus.registerCount ∧
          count.toNat = DoorStatus.registerCount * 2 ∧
          data.length = DoorStatus.registerCount * 2
      · rw [dif_pos hfits, Except.ok.injEq] at hread
        have hquantity : Word.join q₀ q₁ = UInt16.ofNat DoorStatus.registerCount :=
          UInt16.toNat.inj hfits.1
        have hcount : count = UInt8.ofNat (DoorStatus.registerCount * 2) :=
          UInt8.toNat.inj hfits.2.1
        have hdata : Word.toBytes broadcast.registers.toList = data := by
          rw [← hread]
          exact Word.toBytes_ofBytes data (by rw [hfits.2.2]; rfl)
        rw [hpayload, payload, hdata, ← hblock, ← hquantity, hcount, Word.bytes_join,
          Word.bytes_join]
        rfl
      · rw [dif_neg hfits] at hread
        exact absurd hread (by simp only [reduceCtorEq, not_false_eq_true])

theorem ofFrame_frame (broadcast : Broadcast) :
    ofFrame (DriveMessage.status broadcast).frame = .ok broadcast := by
  have hpayload : (DriveMessage.status broadcast).frame.payload
      = [Word.high Block.status, Word.low Block.status,
        Word.high (UInt16.ofNat DoorStatus.registerCount),
        Word.low (UInt16.ofNat DoorStatus.registerCount),
        UInt8.ofNat (DoorStatus.registerCount * 2)] ++ Word.toBytes broadcast.registers.toList :=
    rfl
  have hheader : ¬((DriveMessage.status broadcast).frame.address ≠ Address.broadcast ∨
      (DriveMessage.status broadcast).frame.function ≠ Function.writeBlock) :=
    not_or.mpr ⟨fun hne => hne rfl, fun hne => hne rfl⟩
  have hlength : (Word.toBytes broadcast.registers.toList).length
      = DoorStatus.registerCount * 2 := by
    rw [Word.length_toBytes, Vector.length_toList, Nat.mul_comm]
  rw [ofFrame, if_neg hheader, hpayload]
  simp only [List.cons_append, List.nil_append, Word.join_high_low, ne_eq, not_true_eq_false,
    if_false]
  rw [dif_pos ⟨rfl, rfl, hlength⟩, Except.ok.injEq]
  -- The registers are those whose bytes were sent.
  have hregisters : (block (Word.toBytes broadcast.registers.toList) hlength)
      = broadcast.registers := by
    apply Vector.toList_inj.mp
    exact Word.ofBytes_toBytes broadcast.registers.toList
  rw [hregisters]

theorem toFrame_eq_ok (broadcast : Broadcast) :
    broadcast.toFrame = .ok (DriveMessage.status broadcast).frame :=
  DriveMessage.toFrame_eq_ok (.status broadcast)

/-- The frames that are read as a broadcast are those that one is sent as. -/
theorem ofFrame_iff (frame : Frame) (broadcast : Broadcast) :
    ofFrame frame = .ok broadcast ↔ broadcast.toFrame = .ok frame := by
  constructor
  · intro h
    rcases payload_of_ofFrame h with ⟨haddress, hfunction, hpayload⟩
    rw [toFrame, ← haddress, ← hfunction, ← hpayload]
    exact frame.make_self
  · intro h
    rw [toFrame_eq_ok, Except.ok.injEq] at h
    rw [← h]
    exact ofFrame_frame broadcast

end Broadcast

/-! ## Responses -/

namespace Response

/-- A frame that is read as a response has the payload of that response, which
    holds as many registers as were asked for. -/
theorem payload_of_ofFrame {frame : Frame} {kind : PollKind} {response : Response}
    (h : ofFrame frame kind = .ok response) :
    frame.address = Address.drive ∧ frame.function = Function.readWriteBlock ∧
      frame.payload = response.payload ∧ response.kind = kind ∧
      response.registers.length = kind.readQuantity.toNat := by
  rw [ofFrame] at h
  rcases Frame.header_of_ok h with ⟨haddress, hfunction, hread⟩
  refine ⟨haddress, hfunction, ?_⟩
  split at hread
  case h_1 => exact absurd hread (by simp only [reduceCtorEq, not_false_eq_true])
  case h_2 count data hpayload =>
      simp only at hread
      by_cases hfits : count.toNat = kind.readQuantity.toNat * 2 ∧
          data.length = kind.readQuantity.toNat * 2
      · rw [dif_pos hfits, Except.ok.injEq] at hread
        have hlength : (Word.ofBytes data).length = kind.readQuantity.toNat := by
          rw [Word.length_ofBytes, hfits.2]
          omega
        have hcount : count = UInt8.ofNat (kind.readQuantity.toNat * 2) := by
          rw [← hfits.1, UInt8.ofNat_toNat]
        have hregisters : response.registers = Word.ofBytes data := by rw [← hread]
        have hkind : response.kind = kind := by rw [← hread]
        rw [payload, hregisters, hlength, ← hcount, Word.toBytes_ofBytes data (by omega)]
        exact ⟨hpayload, hkind, rfl⟩
      · rw [dif_neg hfits] at hread
        exact absurd hread (by simp only [reduceCtorEq, not_false_eq_true])

/-- A response is read back under the kind that it answers, if it has the registers of
    that kind. -/
theorem ofFrame_frame (response : Response)
    (h : response.registers.length = response.kind.readQuantity.toNat) :
    ofFrame (DriveMessage.answer response).frame response.kind = .ok response := by
  have hpayload : (DriveMessage.answer response).frame.payload
      = UInt8.ofNat (response.registers.length * 2) :: Word.toBytes response.registers := rfl
  have hheader : ¬((DriveMessage.answer response).frame.address ≠ Address.drive ∨
      (DriveMessage.answer response).frame.function ≠ Function.readWriteBlock) :=
    not_or.mpr ⟨fun hne => hne rfl, fun hne => hne rfl⟩
  have hle : response.registers.length ≤ 8 := response.registers_le
  have hcount : (UInt8.ofNat (response.registers.length * 2)).toNat
      = response.kind.readQuantity.toNat * 2 := by
    rw [UInt8.toNat_ofNat', ← h]
    omega
  have hlength : (Word.toBytes response.registers).length
      = response.kind.readQuantity.toNat * 2 := by
    rw [Word.length_toBytes, ← h, Nat.mul_comm]
  rw [ofFrame, if_neg hheader, hpayload]
  simp only
  rw [dif_pos ⟨hcount, hlength⟩, Except.ok.injEq]
  simp only [Word.ofBytes_toBytes]

theorem toFrame_eq_ok (response : Response) :
    response.toFrame = .ok (DriveMessage.answer response).frame :=
  DriveMessage.toFrame_eq_ok (.answer response)

/-- For responses the kind of the poll comes in, as the frame does not say what was
    asked for. -/
theorem ofFrame_iff (frame : Frame) (kind : PollKind) (response : Response) :
    ofFrame frame kind = .ok response ↔
      response.kind = kind ∧ response.registers.length = kind.readQuantity.toNat ∧
        response.toFrame = .ok frame := by
  constructor
  · intro h
    rcases payload_of_ofFrame h with ⟨haddress, hfunction, hpayload, hkind, hlength⟩
    refine ⟨hkind, hlength, ?_⟩
    rw [toFrame, ← haddress, ← hfunction, ← hpayload]
    exact frame.make_self
  · rintro ⟨rfl, hlength, h⟩
    rw [toFrame_eq_ok, Except.ok.injEq] at h
    rw [← h]
    exact ofFrame_frame response hlength

end Response

/-! ## All three -/

/-- Each reader takes the frames of its messages, and no others. Each message
    has a frame, and is what the other side reads after the frame has gone over
    the wire. -/
theorem messages_exact :
    (∀ frame request, Request.ofFrame frame = .ok request ↔ request.toFrame = .ok frame) ∧
    (∀ frame broadcast, Broadcast.ofFrame frame = .ok broadcast ↔
      broadcast.toFrame = .ok frame) ∧
    (∀ frame kind response, Response.ofFrame frame kind = .ok response ↔
      response.kind = kind ∧ response.registers.length = kind.readQuantity.toNat ∧
        response.toFrame = .ok frame) ∧
    (∀ request : Request, ∃ frame, request.toFrame = .ok frame ∧ frame.sent = .ok frame ∧
      Request.ofFrame frame = .ok request) ∧
    (∀ broadcast : Broadcast, ∃ frame, broadcast.toFrame = .ok frame ∧ frame.sent = .ok frame ∧
      Broadcast.ofFrame frame = .ok broadcast) ∧
    (∀ response : Response, ∃ frame, response.toFrame = .ok frame ∧ frame.sent = .ok frame ∧
      (response.registers.length = response.kind.readQuantity.toNat →
        Response.ofFrame frame response.kind = .ok response)) := by
  refine ⟨Request.ofFrame_iff, Broadcast.ofFrame_iff, Response.ofFrame_iff, ?_, ?_, ?_⟩
  · intro request
    exact ⟨request.frame, request.toFrame_eq_ok, Frame.sent_of_payload (List.cons_ne_nil _ _),
      request.ofFrame_frame⟩
  · intro broadcast
    exact ⟨_, broadcast.toFrame_eq_ok, Frame.sent_of_payload (List.cons_ne_nil _ _),
      broadcast.ofFrame_frame⟩
  · intro response
    exact ⟨_, response.toFrame_eq_ok, Frame.sent_of_payload (List.cons_ne_nil _ _),
      response.ofFrame_frame⟩

end DoorBus

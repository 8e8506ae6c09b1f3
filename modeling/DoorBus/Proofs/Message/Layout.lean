import DoorBus.Message.Broadcast
import DoorBus.Message.Incoming
import DoorBus.Message.Response
import DoorBus.Proofs.Wire.Coverage

/-!
# Layouts of Received Frames

The length of a received frame is computed from its header before the rest of
it has come. The readers of the messages look at the payload again, and each of
them has an answer for a payload that is too short for it. Here the two are
compared. A frame that a receiver returns has just as many bytes as its header
has announced, so the fixed part of its payload is there, and its byte count is
the number of bytes behind it.

So only what the header does not settle is left to the readers: the place and
the quantity of a broadcast, and whether a byte count is the one they want. Each
of them has a single fault to report.

## Main definitions

* `Frame.LaidOut`: The payload of a frame has the layout of its sort.

## Theorems

* `laidOut_of_extent`: Frames as long as their header says are laid out.
* `laidOut_of_feed`, `eq_of_feed_error`: What a byte leads to.
* `ofFrame_of_laidOut`: Such frames are sorted by their layout.
* `Response.ofFrame_of_payload`: An answer fails only by its count.
* `DoorStatus.ofFrame_of_payload`: A broadcast fails only by its fields.
-/

namespace DoorBus

/-- The payload of a frame has the layout of its sort. -/
inductive Frame.LaidOut (frame : Frame) : Incoming → Prop
  /-- A place, a quantity, a byte count, and as many bytes. -/
  | broadcast {s₀ s₁ q₀ q₁ count : UInt8} {data : List UInt8}
    (haddress : frame.address = Address.broadcast)
    (hfunction : frame.function = Function.writeBlock)
    (hpayload : frame.payload = s₀ :: s₁ :: q₀ :: q₁ :: count :: data)
    (hcount : data.length = count.toNat) : LaidOut frame (.broadcast frame)
  /-- A byte count, and as many bytes. -/
  | response {count : UInt8} {data : List UInt8}
    (haddress : frame.address = Address.drive)
    (hfunction : frame.function = Function.readWriteBlock)
    (hpayload : frame.payload = count :: data)
    (hcount : data.length = count.toNat) : LaidOut frame (.response frame)
  /-- A single code. -/
  | exception {code : UInt8}
    (haddress : frame.address = Address.drive)
    (hfunction : frame.function = Function.pollException)
    (hpayload : frame.payload = [code]) : LaidOut frame (.exception code)

namespace Frame

/-! ## Extents -/

theorem extent_toBytes (frame : Frame) :
    extent frame.toBytes
      = extentOf frame.address frame.function (frame.payload ++ trailer frame.body) := rfl

/-- A byte count that is known is there, and tells the length. -/
theorem count_of_extent {fixed length : Nat} {count? : Option UInt8}
    (h : Extent.ofCount fixed count? = .known length) :
    ∃ count, count? = some count ∧ length = fixed + count.toNat := by
  cases count? with
  | none => exact absurd h Extent.noConfusion
  | some count => exact ⟨count, rfl, (Extent.le_of_ofLength_known h).1⟩

/-- A frame as long as its header says is laid out. -/
theorem laidOut_of_extent {frame : Frame}
    (h : extent frame.toBytes = .known frame.toBytes.length) :
    ∃ incoming, frame.LaidOut incoming := by
  have hlength : frame.toBytes.length = frame.payload.length + 4 := by
    rw [length_toBytes, encodedLength]
    omega
  rw [extent_toBytes, hlength, extentOf] at h
  by_cases hbroadcast : frame.address = Address.broadcast ∧ frame.function = Function.writeBlock
  · rw [if_pos hbroadcast] at h
    rcases count_of_extent h with ⟨count, hcount, hlong⟩
    -- A shorter payload would have its byte count in the check, and be longer.
    rcases hpayload : frame.payload with _ | ⟨s₀, _ | ⟨s₁, _ | ⟨q₀, _ | ⟨q₁, _ | ⟨n, data⟩⟩⟩⟩⟩
    case cons.cons.cons.cons.cons =>
      rw [hpayload] at hcount hlong
      have hn : n = count := Option.some.inj hcount
      simp only [List.length_cons] at hlong
      exact ⟨_, .broadcast hbroadcast.1 hbroadcast.2 hpayload (by rw [hn]; omega)⟩
    all_goals
      rw [hpayload] at hlong
      simp only [List.length_cons, List.length_nil] at hlong
      omega
  rw [if_neg hbroadcast] at h
  by_cases hanswer : frame.address = Address.drive ∧ frame.function = Function.readWriteBlock
  · rw [if_pos hanswer] at h
    rcases count_of_extent h with ⟨count, hcount, hlong⟩
    cases hpayload : frame.payload with
    | nil =>
        -- The count would be a byte of the check, and the frame too short for any count.
        rw [hpayload, List.length_nil] at hlong
        omega
    | cons n data =>
        rw [hpayload] at hcount hlong
        have hn : n = count := Option.some.inj hcount
        rw [List.length_cons] at hlong
        exact ⟨_, .response hanswer.1 hanswer.2 hpayload (by rw [hn]; omega)⟩
  rw [if_neg hanswer] at h
  by_cases hexception : frame.address = Address.drive ∧ frame.function = Function.pollException
  · rw [if_pos hexception] at h
    -- The length is fixed, and leaves room for one byte.
    have hone : frame.payload.length = 1 := by
      have hlong := (Extent.le_of_ofLength_known h).1
      omega
    rcases List.length_eq_one_iff.mp hone with ⟨code, hpayload⟩
    exact ⟨_, .exception hexception.1 hexception.2 hpayload⟩
  · rw [if_neg hexception] at h
    exact absurd h Extent.noConfusion

theorem laidOut_of_fills {bytes : List UInt8} {frame : Frame} (h : Fills bytes frame) :
    ∃ incoming, frame.LaidOut incoming := by
  have hextent := h.1
  -- The bytes that a frame fills are those it encodes to.
  rw [← h.toBytes_eq] at hextent
  exact laidOut_of_extent hextent

end Frame

namespace Receiver

variable {receiver : Receiver} {byte : UInt8}

/-- Every frame that a byte returns is laid out. -/
theorem laidOut_of_feed {frame : Frame} (h : (receiver.feed byte).2 = .ok (some frame)) :
    ∃ incoming, frame.LaidOut incoming := by
  rw [feed_returns_iff_completed, completed?_eq_some_iff] at h
  rcases h with ⟨suffix, _, hfills, _⟩
  exact Frame.laidOut_of_fills hfills

/-- A byte reports nothing but a check that does not fit. -/
theorem eq_of_feed_error {error : FrameError} (h : (receiver.feed byte).2 = .error error) :
    error = .checksumMismatch := by
  -- Of the three things that a byte can lead to, one is an error.
  rcases receiver.feed_cases byte with ⟨frame, _, hfeed⟩ | ⟨_, _, hfeed⟩ | ⟨_, _, hfeed⟩
  · rw [hfeed] at h
    exact absurd h (by simp only [reduceCtorEq, not_false_eq_true])
  · rw [hfeed, Except.error.injEq] at h
    exact h.symm
  · rw [hfeed] at h
    exact absurd h (by simp only [reduceCtorEq, not_false_eq_true])

end Receiver

/-! ## Readers -/

theorem Incoming.ofFrame_of_laidOut {frame : Frame} {incoming : Incoming}
    (h : frame.LaidOut incoming) : ofFrame frame = .ok incoming := by
  have haddresses : Address.drive ≠ Address.broadcast := by decide
  have hfunctions : Function.pollException ≠ Function.readWriteBlock := by decide
  -- The three headers exclude each other, so that their order does not matter.
  cases h with
  | broadcast haddress hfunction _ _ => rw [ofFrame, if_pos ⟨haddress, hfunction⟩]
  | response haddress hfunction _ _ =>
      rw [ofFrame, if_neg (fun h => haddresses (haddress.symm.trans h.1)),
        if_pos ⟨haddress, hfunction⟩]
  | exception haddress hfunction hpayload =>
      rw [ofFrame, if_neg (fun h => haddresses (haddress.symm.trans h.1)),
        if_neg (fun h => hfunctions (hfunction.symm.trans h.2)),
        if_pos ⟨haddress, hfunction⟩, hpayload]

/-- With its header and its layout right, an answer fails only by its byte
    count. -/
theorem Response.ofFrame_of_payload {frame : Frame} {count : UInt8} {data : List UInt8}
    (haddress : frame.address = Address.drive)
    (hfunction : frame.function = Function.readWriteBlock)
    (hpayload : frame.payload = count :: data) (hcount : data.length = count.toNat)
    (kind : PollKind) :
    (count.toNat = 2 * kind.readQuantity.toNat ∧ ∃ response, ofFrame frame kind = .ok response) ∨
      (count.toNat ≠ 2 * kind.readQuantity.toNat ∧
        ofFrame frame kind = .error .malformedResponse) := by
  have hheader : ¬(frame.address ≠ Address.drive ∨ frame.function ≠ Function.readWriteBlock) :=
    not_or.mpr ⟨fun hne => hne haddress, fun hne => hne hfunction⟩
  rw [ofFrame, if_neg hheader, hpayload]
  simp only []
  -- The reader asks for the length as well, but that is the count.
  by_cases hfits : count.toNat = 2 * kind.readQuantity.toNat
  · exact .inl ⟨hfits, _, dif_pos ⟨by omega, by omega⟩⟩
  · exact .inr ⟨hfits, dif_neg fun h => hfits (by omega)⟩

/-- With its header and its layout right, a broadcast fails only by its place,
    its quantity or its byte count. -/
theorem DoorStatus.ofFrame_of_payload {frame : Frame} {s₀ s₁ q₀ q₁ count : UInt8}
    {data : List UInt8} (haddress : frame.address = Address.broadcast)
    (hfunction : frame.function = Function.writeBlock)
    (hpayload : frame.payload = s₀ :: s₁ :: q₀ :: q₁ :: count :: data)
    (hcount : data.length = count.toNat) :
    ((Word.join s₀ s₁ = Block.status ∧ (Word.join q₀ q₁).toNat = registerCount ∧
        count.toNat = 2 * registerCount) ∧ ∃ status, ofFrame frame = .ok status) ∨
      ((Word.join s₀ s₁ ≠ Block.status ∨ (Word.join q₀ q₁).toNat ≠ registerCount ∨
        count.toNat ≠ 2 * registerCount) ∧
        ∃ error, ofFrame frame = .error error ∧
          (error = .unknownRegister ∨ error = .malformedStatus)) := by
  have hheader : ¬(frame.address ≠ Address.broadcast ∨ frame.function ≠ Function.writeBlock) :=
    not_or.mpr ⟨fun hne => hne haddress, fun hne => hne hfunction⟩
  rw [ofFrame, Broadcast.ofFrame, if_neg hheader, hpayload]
  simp only []
  by_cases hplace : Word.join s₀ s₁ ≠ Block.status
  · rw [if_pos hplace]
    exact .inr ⟨.inl hplace, _, rfl, .inl rfl⟩
  rw [if_neg hplace]
  by_cases hfits : (Word.join q₀ q₁).toNat = registerCount ∧ count.toNat = registerCount * 2 ∧
      data.length = registerCount * 2
  · rw [dif_pos hfits]
    exact .inl ⟨⟨Decidable.not_not.mp hplace, hfits.1, by omega⟩, _, rfl⟩
  · rw [dif_neg hfits]
    -- The length says nothing that the byte count has not said.
    exact .inr ⟨.inr (by omega), _, rfl, .inr rfl⟩

end DoorBus

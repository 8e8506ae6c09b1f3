import DoorBus.Wire.Frame

/-!
# The Frame Codec

What a frame looks like on the wire, and when a run of bytes is one.

Encoding goes through a buffer of the largest size, and decoding through a
length check, a cut and a comparison. Neither is convenient to reason about,
so this module reduces both to `Frame.toBytes`: encoding gives exactly these
bytes, and a run of bytes is read as a frame only if it is what that frame
encodes to. Reading back what was encoded needs a payload, because a frame
without one is too short to be read.

What decoding does is settled by the length and by one property of the bytes.
They are checked, or are not: the last two are the check of all others. So
there are four cases, each with one answer, and `codec_exact` puts them
together with the converse, that each frame with a payload is among the last
of them.

## Main definitions

* `Frame.IsChecked`: The last two bytes are the check of the others.

## Theorems

* `make_eq_ok`: A payload that fits makes a frame.
* `length_toBytes`: A frame takes as many bytes as it says.
* `encodeInto_of_short`, `encodeInto_of_room`: Encoding into a buffer.
* `encode_eq_ok`: Encoding cannot fail, and gives the bytes of the frame.
* `decode_toBytes`: A frame with a payload is read back.
* `decode_of_short`, `decode_of_long`, `decode_of_unchecked`,
  `decode_of_checked`: The four cases of decoding.
* `toBytes_of_decode`: What is read as a frame is what it encodes to.
* `codec_exact`: What encoding and decoding do, in every case.
-/

namespace DoorBus

namespace Frame

theorem make_eq_ok (address function : UInt8) (payload : List UInt8)
    (hfits : payload.length ≤ maxPayload) :
    make address function payload = .ok ⟨address, function, payload, hfits⟩ := by
  rw [make, dif_pos hfits]

theorem length_trailer (body : List UInt8) : (trailer body).length = 2 := rfl

theorem length_body (frame : Frame) : frame.body.length = frame.payload.length + 2 := rfl

/-- The bytes are as many as the frame announces, so a caller can ask for the
    room beforehand. -/
theorem length_toBytes (frame : Frame) : frame.toBytes.length = frame.encodedLength := by
  rw [toBytes, List.length_append, length_trailer, length_body, encodedLength]
  omega

/-- No frame is longer than the largest buffer. -/
theorem encodedLength_le (frame : Frame) : frame.encodedLength ≤ maxLength := by
  have hpayload := frame.payload_le
  rw [encodedLength, maxLength]
  omega

/-! ## Buffers -/

/-- Too small a buffer is left as it was. -/
theorem encodeInto_of_short {frame : Frame} {buffer : List UInt8}
    (h : buffer.length < frame.encodedLength) :
    frame.encodeInto buffer = (buffer, .error .bufferTooSmall) :=
  if_pos h

/-- What is behind the frame in a larger buffer stays there. -/
theorem encodeInto_of_room {frame : Frame} {buffer : List UInt8}
    (h : frame.encodedLength ≤ buffer.length) :
    frame.encodeInto buffer
      = (frame.toBytes ++ buffer.drop frame.encodedLength, .ok frame.encodedLength) :=
  if_neg (Nat.not_lt.mpr h)

/-- The largest buffer has room for every frame, and what stands behind the
    frame in it is not kept. -/
theorem encode_eq_ok (frame : Frame) : frame.encode = .ok frame.toBytes := by
  have hroom : frame.encodedLength ≤ (List.replicate maxLength (0 : UInt8)).length := by
    rw [List.length_replicate]
    exact frame.encodedLength_le
  rw [encode, writeInto, encodeInto_of_room hroom, Except.map]
  simp only []
  rw [← length_toBytes, List.take_left]

/-! ## Reading -/

/-- A frame with a payload is read back from its bytes. Without one they are
    too few. -/
theorem decode_toBytes (frame : Frame) (hpayload : frame.payload ≠ []) :
    decode frame.toBytes = .ok frame := by
  have hpos : 0 < frame.payload.length := List.length_pos_iff.mpr hpayload
  have hle := frame.payload_le
  have hlen : frame.toBytes.length = frame.payload.length + 4 := by
    rw [length_toBytes, encodedLength]
    omega
  have hcut : frame.toBytes.length - 2 = frame.body.length := by
    rw [hlen, length_body]
    omega
  -- The length is in range, and the check at the end is that of the bytes before it.
  rw [decode, if_neg (by rw [hlen, minLength]; omega),
    if_neg (by rw [hlen, maxLength]; omega)]
  simp only []
  rw [hcut, toBytes, List.take_left, List.drop_left, if_pos rfl]
  exact make_eq_ok frame.address frame.function frame.payload frame.payload_le

/-- The last two bytes are the check of all others, low byte first. -/
def IsChecked (bytes : List UInt8) : Prop :=
  ∃ body, bytes = body ++ [(Checksum.over body).toUInt8, (Checksum.over body >>> 8).toUInt8]

/-- The check at the end is compared with that of all bytes in front of it,
    which is how the decoder puts it. -/
theorem isChecked_iff (bytes : List UInt8) :
    IsChecked bytes ↔ trailer (bytes.take (bytes.length - 2)) = bytes.drop (bytes.length - 2) := by
  constructor
  · rintro ⟨body, hbytes⟩
    have hsplit : bytes = body ++ trailer body := hbytes
    have hcut : bytes.length - 2 = body.length := by
      rw [hsplit, List.length_append, length_trailer]
      omega
    rw [hcut, hsplit, List.take_left, List.drop_left]
  · intro hcheck
    refine ⟨bytes.take (bytes.length - 2), ?_⟩
    have hsplit := List.take_append_drop (bytes.length - 2) bytes
    rw [← hcheck] at hsplit
    exact hsplit.symm

theorem decode_of_short {bytes : List UInt8} (h : bytes.length < minLength) :
    decode bytes = .error .truncated :=
  if_pos h

theorem decode_of_long {bytes : List UInt8} (h : maxLength < bytes.length) :
    decode bytes = .error .payloadTooLarge := by
  have hshort : ¬bytes.length < minLength := by
    rw [maxLength, maxPayload] at h
    rw [minLength]
    omega
  rw [decode, if_neg hshort, if_pos h]

/-- Of a length that is possible, bytes are refused for their check only. -/
theorem decode_of_unchecked {bytes : List UInt8} (hmin : minLength ≤ bytes.length)
    (hmax : bytes.length ≤ maxLength) (h : ¬IsChecked bytes) :
    decode bytes = .error .checksumMismatch := by
  rw [decode, if_neg (Nat.not_lt.mpr hmin), if_neg (Nat.not_lt.mpr hmax)]
  simp only []
  rw [if_neg (fun hcheck => h ((isChecked_iff bytes).mpr hcheck))]

/-- Checked bytes of a possible length are those of a frame with a payload, and
    so are read back as it. -/
theorem decode_of_checked {bytes : List UInt8} (hmin : minLength ≤ bytes.length)
    (hmax : bytes.length ≤ maxLength) (h : IsChecked bytes) :
    ∃ frame, decode bytes = .ok frame ∧ frame.toBytes = bytes := by
  rcases h with ⟨body, hbytes⟩
  have hlen : bytes.length = body.length + 2 := by
    rw [hbytes, List.length_append]
    rfl
  rw [minLength] at hmin
  rw [maxLength, maxPayload] at hmax
  -- Two bytes of the body are the address and the function, and there is a third one.
  match body, hbytes, hlen with
  | [], _, hlen => rw [hlen, List.length_nil] at hmin; omega
  | [_], _, hlen => rw [hlen, List.length_singleton] at hmin; omega
  | [_, _], _, hlen => rw [hlen, List.length_cons, List.length_singleton] at hmin; omega
  | address :: function :: first :: rest, hbytes, hlen =>
      have hfits : (first :: rest).length ≤ maxPayload := by
        rw [List.length_cons, List.length_cons] at hlen
        rw [maxPayload]
        omega
      have hframe : (⟨address, function, first :: rest, hfits⟩ : Frame).toBytes = bytes :=
        hbytes.symm
      refine ⟨⟨address, function, first :: rest, hfits⟩, ?_, hframe⟩
      rw [← hframe]
      exact decode_toBytes _ (List.cons_ne_nil first rest)

/-- What is read as a frame is exactly what that frame encodes to. -/
theorem toBytes_of_decode {bytes : List UInt8} {frame : Frame}
    (h : decode bytes = .ok frame) : frame.toBytes = bytes := by
  by_cases hshort : bytes.length < minLength
  · rw [decode_of_short hshort] at h
    exact absurd h (by simp only [reduceCtorEq, not_false_eq_true])
  by_cases hlong : maxLength < bytes.length
  · rw [decode_of_long hlong] at h
    exact absurd h (by simp only [reduceCtorEq, not_false_eq_true])
  have hmin := Nat.not_lt.mp hshort
  have hmax := Nat.not_lt.mp hlong
  -- The other three cases of decoding give no frame.
  by_cases hchecked : IsChecked bytes
  · rcases decode_of_checked hmin hmax hchecked with ⟨other, hdecode, hother⟩
    rw [h, Except.ok.injEq] at hdecode
    rw [hdecode, hother]
  · rw [decode_of_unchecked hmin hmax hchecked] at h
    exact absurd h (by simp only [reduceCtorEq, not_false_eq_true])

/-! ## The codec -/

/-- What encoding and decoding do, in every case. Any address, function and
    payload of up to 255 bytes make a frame, which can be encoded and, with a
    payload, is read back. Of any bytes, those with less than five are
    truncated, those with more than 259 are too many, and the others are read
    as a frame, which encodes to them, unless their last two are not the check
    of the rest. A frame goes into any buffer with four bytes more than its
    payload. There it stands as it is encoded, with the rest of the buffer
    untouched, and a smaller buffer is untouched altogether. -/
theorem codec_exact :
    (∀ address function payload, payload.length ≤ 255 →
      ∃ frame bytes, make address function payload = .ok frame ∧ frame.address = address ∧
        frame.function = function ∧ frame.payload = payload ∧ frame.encode = .ok bytes ∧
        (payload ≠ [] → decode bytes = .ok frame)) ∧
    (∀ bytes, (decode bytes = .error .truncated ↔ bytes.length < 5) ∧
      (decode bytes = .error .payloadTooLarge ↔ 259 < bytes.length) ∧
      (decode bytes = .error .checksumMismatch ↔
        5 ≤ bytes.length ∧ bytes.length ≤ 259 ∧ ¬IsChecked bytes) ∧
      ((∃ frame, decode bytes = .ok frame) ↔
        5 ≤ bytes.length ∧ bytes.length ≤ 259 ∧ IsChecked bytes) ∧
      ∀ frame, decode bytes = .ok frame → frame.encode = .ok bytes) ∧
    (∀ (frame : Frame) (buffer : List UInt8),
      ((frame.encodeInto buffer).2 = .error .bufferTooSmall ↔
        buffer.length < frame.payload.length + 4) ∧
      (buffer.length < frame.payload.length + 4 → (frame.encodeInto buffer).1 = buffer) ∧
      (frame.payload.length + 4 ≤ buffer.length →
        ∃ bytes, frame.encode = .ok bytes ∧ (frame.encodeInto buffer).2 = .ok bytes.length ∧
          (frame.encodeInto buffer).1.take bytes.length = bytes ∧
          (frame.encodeInto buffer).1.drop bytes.length = buffer.drop bytes.length)) := by
  refine ⟨?_, ?_, ?_⟩
  · intro address function payload hfits
    refine ⟨⟨address, function, payload, hfits⟩, _, make_eq_ok address function payload hfits,
      rfl, rfl, rfl, encode_eq_ok _, fun hpayload => decode_toBytes _ hpayload⟩
  · intro bytes
    -- One of the four cases applies, and excludes the answers of the other three.
    by_cases hshort : bytes.length < 5
    · simp only [decode_of_short hshort, Except.error.injEq, reduceCtorEq, true_iff, false_iff,
        exists_false]
      exact ⟨hshort, by omega, by omega, by omega, fun frame hne => absurd hne id⟩
    by_cases hlong : 259 < bytes.length
    · simp only [decode_of_long hlong, Except.error.injEq, reduceCtorEq, true_iff, false_iff,
        exists_false]
      exact ⟨hshort, hlong, by omega, by omega, fun frame hne => absurd hne id⟩
    have hmin := Nat.not_lt.mp hshort
    have hmax := Nat.not_lt.mp hlong
    by_cases hchecked : IsChecked bytes
    · rcases decode_of_checked hmin hmax hchecked with ⟨frame, hdecode, hbytes⟩
      simp only [hdecode, reduceCtorEq, false_iff, Except.ok.injEq, exists_eq', true_iff]
      refine ⟨hshort, hlong, fun hne => hne.2.2 hchecked, ⟨hmin, hmax, hchecked⟩, ?_⟩
      rintro other rfl
      rw [encode_eq_ok, hbytes]
    · simp only [decode_of_unchecked hmin hmax hchecked, Except.error.injEq, reduceCtorEq,
        true_iff, false_iff, exists_false]
      exact ⟨hshort, hlong, ⟨hmin, hmax, hchecked⟩, fun hne => hchecked hne.2.2,
        fun frame hne => absurd hne id⟩
  · intro frame buffer
    have hlen : frame.encodedLength = frame.payload.length + 4 := by
      rw [encodedLength]
      omega
    by_cases hshort : buffer.length < frame.payload.length + 4
    · rw [encodeInto_of_short (by omega)]
      exact ⟨⟨fun _ => hshort, fun _ => rfl⟩, fun _ => rfl, fun hroom => by omega⟩
    · rw [encodeInto_of_room (by omega)]
      refine ⟨⟨fun hne => absurd hne (by simp only [reduceCtorEq, not_false_eq_true]),
        fun h => absurd h hshort⟩, fun h => absurd h hshort, fun _ => ?_⟩
      refine ⟨frame.toBytes, encode_eq_ok frame, ?_, List.take_left, ?_⟩
      · rw [length_toBytes]
      · rw [List.drop_left, length_toBytes]

end Frame

end DoorBus

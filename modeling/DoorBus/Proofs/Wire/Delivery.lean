import DoorBus.Message.Broadcast
import DoorBus.Message.Response
import DoorBus.Proofs.Wire.Coverage

/-!
# Delivery of an Aligned Stream

What becomes of messages that follow each other without gap or noise, with a
receiver that starts out empty.

One would expect each message to come out with its last byte, and nothing
before that. This is almost so. The receiver does not trust its alignment: it
tries every place where a frame may start, so that noise which looks like the
start of a long frame cannot hide a real frame behind it. The price is that
register contents are searched as well. If some bytes inside a message are
themselves a frame, this inner frame is returned when its last byte arrives,
and the message around it is lost.

Nothing else can go wrong. `delivers_iff` says that the stream is delivered
exactly if and only if no message hides a frame in front of its last byte. A
hidden frame takes at least five bytes, so exceptions hide none.

## Main definitions

* `DriveMessage`: What the drive sends.
* `Frame.HidesNone`: No frame ends in front of the last byte.
* `Receiver.verdicts`: What feeding a message should give.
* `Receiver.Delivers`: Each message comes out with its last byte.

## Theorems

* `DriveMessage.toFrame_eq_ok`: Every message has a frame.
* `DriveMessage.extent_toBytes`: The bridge can receive it.
* `feedAll_of_hidesNone`: A message that hides nothing is delivered.
* `hidesNone_of_feedAll`: A message that is delivered hides nothing.
* `delivers_frames_iff`: The same for a stream of frames.
* `hidesNone_of_short`: A short frame hides nothing.
* `delivers_iff`: When a stream of messages is delivered exactly.
* `not_delivers_nested`: A broadcast that is displaced by its own contents.
-/

namespace DoorBus

/-! ## Messages -/

/-- What the drive sends. -/
inductive DriveMessage
  /-- The status of the door. -/
  | status (broadcast : Broadcast)
  /-- The answer to a poll. -/
  | answer (response : Response)
  /-- An exception in answer to a poll. -/
  | exception (code : UInt8)

namespace DriveMessage

/-- Building the frame of a message. -/
def toFrame : DriveMessage → Except FrameError Frame
  | status broadcast => broadcast.toFrame
  | answer response => response.toFrame
  | exception code => Frame.make Address.drive Function.pollException [code]

theorem length_broadcast_payload (broadcast : Broadcast) : broadcast.payload.length = 23 := by
  rw [Broadcast.payload, List.length_append, Word.length_toBytes, Vector.length_toList]
  rfl

theorem length_response_payload (response : Response) :
    response.payload.length = 2 * response.registers.length + 1 := by
  rw [Response.payload, List.length_cons, Word.length_toBytes]

/-- A response has room in a frame, as it has eight registers at most. -/
theorem response_payload_le (response : Response) :
    response.payload.length ≤ Frame.maxPayload := by
  have hle : response.registers.length ≤ 8 := response.registers_le
  rw [length_response_payload, Frame.maxPayload]
  omega

/-- The frame of a message. -/
def frame : DriveMessage → Frame
  | status broadcast =>
    ⟨Address.broadcast, Function.writeBlock, broadcast.payload,
      Nat.le_trans (Nat.le_of_eq (length_broadcast_payload broadcast)) (by decide)⟩
  | answer response =>
    ⟨Address.drive, Function.readWriteBlock, response.payload, response_payload_le response⟩
  | exception code => ⟨Address.drive, Function.pollException, [code], (by decide : 1 ≤ 255)⟩

/-- No message of a drive is too long to be sent. -/
theorem toFrame_eq_ok (message : DriveMessage) : message.toFrame = .ok message.frame := by
  cases message with
  | status broadcast => exact Frame.make_eq_ok _ _ _ _
  | answer response => exact Frame.make_eq_ok _ _ _ _
  | exception code => exact Frame.make_eq_ok _ _ _ _

/-- The header of a message announces the length that it has. -/
theorem extent_toBytes (message : DriveMessage) :
    extent message.frame.toBytes = .known message.frame.toBytes.length := by
  cases message with
  | status broadcast =>
      have hlen : (status broadcast).frame.toBytes.length = 27 := by
        rw [Frame.length_toBytes, Frame.encodedLength, frame, length_broadcast_payload]
      rw [hlen]
      rfl
  | answer response =>
      have hle : response.registers.length ≤ 8 := response.registers_le
      have hlen : (answer response).frame.toBytes.length
          = 5 + 2 * response.registers.length := by
        rw [Frame.length_toBytes, Frame.encodedLength, frame, length_response_payload]
        omega
      -- The count of bytes does not wrap, with eight registers at most.
      have hcount : (UInt8.ofNat (response.registers.length * 2)).toNat
          = 2 * response.registers.length := by
        rw [UInt8.toNat_ofNat']
        omega
      have hextent : extent (answer response).frame.toBytes
          = Extent.ofLength (5 + (UInt8.ofNat (response.registers.length * 2)).toNat) := rfl
      have hfits : ¬ Frame.maxLength < 5 + 2 * response.registers.length := by
        rw [Frame.maxLength, Frame.maxPayload]
        omega
      rw [hextent, hcount, hlen, Extent.ofLength, if_neg hfits]
  | exception code => rfl

end DriveMessage

/-- No frame ends in front of the last byte. -/
def Frame.HidesNone (frame : Frame) : Prop :=
  ∀ part other, part <:+: frame.toBytes.dropLast → ¬ Fills part other

/-- A frame takes at least five bytes, and a shorter stretch has no room for
    one. -/
theorem hidesNone_of_short {frame : Frame} (h : frame.encodedLength ≤ Frame.minLength) :
    frame.HidesNone := by
  intro part other hpart hfills
  have hmin := (le_of_extent_known hfills.1).1
  have hlen := hpart.length_le
  rw [List.length_dropLast, Frame.length_toBytes] at hlen
  rw [Frame.minLength] at h hmin
  omega

namespace Receiver

/-! ## One message -/

/-- What feeding a message should give: nothing, and the message with its last
    byte. -/
def verdicts (frame : Frame) : List (Except FrameError (Option Frame)) :=
  List.replicate (frame.encodedLength - 1) (.ok none) ++ [.ok (some frame)]

theorem length_feedAll (receiver : Receiver) (bytes : List UInt8) :
    (receiver.feedAll bytes).2.length = bytes.length := by
  induction bytes generalizing receiver with
  | nil => rfl
  | cons byte rest ih => rw [feedAll_cons, List.length_cons, List.length_cons, ih]

/-- The beginning of a frame is kept as it is, there being room for all of
    it. -/
theorem candidates_of_begin {frame : Frame} {front rest : List UInt8} {byte : UInt8}
    (hextent : extent frame.toBytes = .known frame.toBytes.length)
    (hsplit : frame.toBytes = front ++ byte :: rest) :
    candidates ⟨front⟩ byte = front ++ [byte] := by
  have hroom : front.length < Frame.maxLength := by
    have hle := (le_of_extent_known hextent).2
    rw [hsplit, List.length_append, List.length_cons] at hle
    omega
  refine candidates_of_possible hroom fun himpossible => ?_
  have hsettled := extent_append (front ++ [byte]) rest (by rw [himpossible]; simp only [ne_eq,
    reduceCtorEq, not_false_eq_true])
  rw [List.append_assoc, List.singleton_append, ← hsplit, hextent, himpossible] at hsettled
  exact absurd hsettled Extent.noConfusion

/-- From any point inside a message that hides nothing, the rest of it brings
    the message with the last byte and nothing before. The induction is on the
    rest, while what has been fed stays in the buffer. -/
theorem feedAll_from_begin {frame : Frame} (hnone : frame.HidesNone)
    (hextent : extent frame.toBytes = .known frame.toBytes.length) (rest : List UInt8) :
    ∀ front last, frame.toBytes = front ++ rest ++ [last] →
      feedAll ⟨front⟩ (rest ++ [last])
        = ({}, List.replicate rest.length (.ok none) ++ [.ok (some frame)]) := by
  induction rest with
  | nil =>
      intro front last hsplit
      rw [List.append_nil] at hsplit
      have hcandidates := candidates_of_begin hextent hsplit
      have hcompleted : completed? (candidates ⟨front⟩ last) = some frame := by
        rw [hcandidates, ← hsplit, completed?_eq_some_iff]
        exact ⟨frame.toBytes, List.suffix_refl _, fills_toBytes hextent,
          fun _ _ hother _ => hother.length_le⟩
      rw [List.nil_append, feedAll_cons, feed_of_completed hcompleted]
      rfl
  | cons byte rest ih =>
      intro front last hsplit
      have hsplit' : frame.toBytes = front ++ byte :: (rest ++ [last]) := by
        rw [hsplit, List.append_assoc, List.cons_append]
      have hcandidates := candidates_of_begin hextent hsplit'
      -- A frame that ended here would end in front of the last byte.
      have hcompleted : completed? (candidates ⟨front⟩ byte) = none := by
        rw [hcandidates, completed?_eq_none_iff]
        intro suffix other hsuffix
        refine hnone suffix other (hsuffix.isInfix.trans ⟨[], rest, ?_⟩)
        rw [hsplit, List.dropLast_concat, List.nil_append, List.append_assoc,
          List.singleton_append]
      have hopen : extent (candidates ⟨front⟩ byte)
          ≠ .known (candidates ⟨front⟩ byte).length := by
        intro hknown
        rw [hcandidates] at hknown
        have hsettled := extent_append (front ++ [byte]) (rest ++ [last])
          (by rw [hknown]; exact Extent.noConfusion)
        rw [List.append_assoc, List.singleton_append, ← hsplit', hextent, hknown,
          Extent.known.injEq, hsplit'] at hsettled
        simp only [List.length_append, List.length_cons, List.length_nil] at hsettled
        omega
      rw [List.cons_append, feedAll_cons, feed_of_open hcompleted hopen, hcandidates,
        ih (front ++ [byte]) last (by rw [hsplit, List.append_cons front byte rest]),
        List.length_cons, List.replicate_succ, List.cons_append]

/-- Without a frame hidden in it, the message is kept up to its last byte, which
    returns it. -/
theorem feedAll_of_hidesNone {frame : Frame} (hnone : frame.HidesNone)
    (hextent : extent frame.toBytes = .known frame.toBytes.length) :
    feedAll {} frame.toBytes = ({}, verdicts frame) := by
  rcases List.eq_nil_or_concat frame.toBytes with hnil | ⟨rest, last, hsplit⟩
  · exact absurd hnil (fills_toBytes hextent).ne_nil
  rw [List.concat_eq_append] at hsplit
  have hlen := congrArg List.length hsplit
  rw [Frame.length_toBytes, List.length_append, List.length_singleton] at hlen
  rw [verdicts, hlen, Nat.add_sub_cancel, hsplit]
  exact feedAll_from_begin hnone hextent rest [] last hsplit

/-- A message that is delivered hides nothing: the hidden frame would have
    been returned. -/
theorem hidesNone_of_feedAll {frame : Frame}
    (h : feedAll {} frame.toBytes = ({}, verdicts frame)) : frame.HidesNone := by
  rintro part other ⟨front, rest, hpart⟩ hfills
  have hne : front ++ part ≠ [] := fun hnil => hfills.ne_nil (List.append_eq_nil_iff.mp hnil).2
  rcases feedAll_finds_some (Covers.refl []) hne (List.suffix_append front part) hfills with
    ⟨found, hfound⟩
  -- What was returned up to the end of the hidden frame begins the verdicts.
  have hbegin : (feedAll {} (front ++ part)).2 <+: (feedAll {} frame.toBytes).2 := by
    have hprefix : front ++ part <+: frame.toBytes :=
      ⟨rest ++ frame.toBytes.drop (frame.toBytes.length - 1), by
        rw [← List.append_assoc, hpart, List.dropLast_eq_take, List.take_append_drop]⟩
    rcases hprefix with ⟨more, hmore⟩
    rw [← hmore, feedAll_append {} (front ++ part) more]
    exact List.prefix_append _ _
  have hlen := congrArg List.length hpart
  rw [List.length_append, List.length_dropLast, Frame.length_toBytes] at hlen
  rw [h, verdicts] at hbegin
  have hopen : (feedAll {} (front ++ part)).2
      <+: List.replicate (frame.encodedLength - 1) (.ok none) :=
    List.prefix_of_prefix_length_le hbegin (List.prefix_append _ _)
      (by rw [length_feedAll, List.length_replicate]; omega)
  have hmem := List.eq_of_mem_replicate (hopen.mem hfound)
  exact absurd hmem (by simp only [Except.ok.injEq, reduceCtorEq, not_false_eq_true])

/-! ## Streams -/

/-- Each frame of a stream comes out with its last byte, and nothing else
    does. Behind every one of them the receiver is empty. -/
def Delivers (frames : List Frame) : Prop :=
  ∀ done, done <+: frames →
    feedAll {} (done.flatMap Frame.toBytes) = ({}, done.flatMap verdicts)

theorem delivers_frames_iff {frames : List Frame}
    (hextent : ∀ frame ∈ frames, extent frame.toBytes = .known frame.toBytes.length) :
    Delivers frames ↔ ∀ frame ∈ frames, frame.HidesNone := by
  constructor
  · intro h frame hmem
    rcases List.append_of_mem hmem with ⟨before, after, hsplit⟩
    rw [hsplit] at h
    -- The stream up to a message and the one through it differ by that message.
    have hbefore := h before (List.prefix_append _ _)
    have hthrough := h (before ++ [frame]) ⟨after, by rw [List.append_assoc]; rfl⟩
    rw [List.flatMap_append, List.flatMap_append, List.flatMap_singleton, List.flatMap_singleton,
      feedAll_append, hbefore, Prod.mk.injEq, List.append_cancel_left_eq] at hthrough
    exact hidesNone_of_feedAll (Prod.ext hthrough.1 hthrough.2)
  · intro h done hdone
    -- Each message meets an empty receiver and leaves one behind.
    have hall : ∀ frame ∈ done, feedAll {} frame.toBytes = ({}, verdicts frame) := fun frame hmem =>
      feedAll_of_hidesNone (h frame (hdone.mem hmem)) (hextent frame (hdone.mem hmem))
    clear hdone
    induction done with
    | nil => rfl
    | cons frame done ih =>
        rw [List.flatMap_cons, List.flatMap_cons, feedAll_append, hall frame List.mem_cons_self,
          ih fun other hmem => hall other (List.mem_cons_of_mem frame hmem)]

/-- Messages of the drive can all be encoded, and the stream of their
    encodings is delivered exactly if and only if none of them hides a frame
    in front of its last byte. Exceptions never do. -/
theorem delivers_iff (messages : List DriveMessage) :
    (∀ message ∈ messages,
      message.toFrame.bind Frame.encode = .ok message.frame.toBytes) ∧
    (Delivers (messages.map DriveMessage.frame) ↔
      ∀ message ∈ messages, message.frame.HidesNone) ∧
    (∀ code, (DriveMessage.exception code).frame.HidesNone) := by
  refine ⟨fun message _ => ?_, ?_, fun code => ?_⟩
  · rw [message.toFrame_eq_ok, Except.bind]
    exact message.frame.encode_eq_ok
  · rw [delivers_frames_iff, List.forall_mem_map]
    rw [List.forall_mem_map]
    exact fun message _ => message.extent_toBytes
  · have hlen : (DriveMessage.exception code).frame.encodedLength = Frame.minLength := rfl
    exact hidesNone_of_short (Nat.le_of_eq hlen)

/-- A broadcast whose first three registers happen to hold an answer without
    registers. The answer is returned in its place. -/
theorem not_delivers_nested :
    ¬ Delivers [(DriveMessage.status
      ⟨#v[0x0217, 0x00DF, 0xF000, 0, 0, 0, 0, 0, 0]⟩).frame] := by
  intro h
  have hhides := (delivers_frames_iff fun frame hmem => ?_).mp h _ List.mem_cons_self
  · have hinner : extent (Frame.toBytes ⟨0x02, 0x17, [0x00], by decide⟩) = .known 5 := by
      decide +kernel
    -- The answer stands behind seven bytes of the broadcast.
    refine hhides _ _ ⟨[0x00, 0x10, 0x9D, 0x31, 0x00, 0x09, 0x12],
      List.replicate 13 0 ++ [0x75], ?_⟩ (fills_toBytes hinner)
    decide +kernel
  · rw [List.mem_singleton.mp hmem]
    exact DriveMessage.extent_toBytes _

end Receiver

end DoorBus

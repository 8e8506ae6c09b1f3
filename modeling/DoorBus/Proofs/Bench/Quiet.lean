import DoorBus.Bench.Drive
import DoorBus.Proofs.Bench.Door
import DoorBus.Proofs.Wire.Delivery
import DoorBus.Proofs.Wire.Word

/-!
# What the Bench Drive Sends Hides No Frame

A message of the drive gets lost if some of its bytes are themselves a frame.
There are messages like that, so that a drive is only heard if it never has
reason to send one.

To look for hidden frames, all places of a message are tried. Almost all are
ruled out by two bytes in a row, since only three pairs can start a frame. What
remains are the places where a byte depends on the state of the drive. There
the frame that would start runs beyond the message, or fails its check, or the
state does not occur. The last happens only in the broadcast: a door that has
been asked for the usual places does not travel to place 2, and stands at place
16 or passes it on the way down.

## Main definitions

* `IsFree`: No frame stands anywhere among some bytes.
* `IsHeader`: Two bytes that can start a frame.
* `DoorStatus.IsHarmless`: A status whose broadcast hides nothing.

## Theorems

* `isFree_cons`: Places are ruled out one by one.
* `hidesNone_status`: Broadcasts of harmless statuses hide nothing.
* `hidesNone_answer`: Nor do answers, whatever the counters.
* `isHarmless_of_isUsual`: The status of a usual door is harmless.
-/

namespace DoorBus

/-- No frame stands anywhere among the bytes. -/
def IsFree (bytes : List UInt8) : Prop :=
  ∀ part frame, part <:+: bytes → ¬Fills part frame

/-- Two bytes that can start a frame. -/
def IsHeader (address function : UInt8) : Prop :=
  address = 0x00 ∧ function = 0x10 ∨ address = 0x02 ∧ (function = 0x17 ∨ function = 0x97)

instance (address function : UInt8) : Decidable (IsHeader address function) :=
  inferInstanceAs (Decidable (_ ∨ _))

/-! ## Places -/

/-- This test and the next one rule out a place of which only one byte is known. -/
theorem not_isHeader_of_address {address : UInt8} (h : address ≠ 0x00 ∧ address ≠ 0x02)
    (function : UInt8) : ¬IsHeader address function := by
  rintro (⟨hzero, _⟩ | ⟨htwo, _⟩)
  · exact h.1 hzero
  · exact h.2 htwo

theorem not_isHeader_of_function {function : UInt8}
    (h : function ≠ 0x10 ∧ function ≠ 0x17 ∧ function ≠ 0x97) (address : UInt8) :
    ¬IsHeader address function := by
  rintro (⟨_, hwrite⟩ | ⟨_, hanswer | hexception⟩)
  · exact h.1 hwrite
  · exact h.2.1 hanswer
  · exact h.2.2 hexception

/-- Only behind such a header is the length of a frame ever settled. -/
theorem isHeader_of_known {address function : UInt8} {rest : List UInt8} {n : Nat}
    (h : extent (address :: function :: rest) = .known n) : IsHeader address function := by
  rw [extent, extentOf] at h
  by_cases hbroadcast : address = Address.broadcast ∧ function = Function.writeBlock
  · exact .inl hbroadcast
  rw [if_neg hbroadcast] at h
  by_cases hanswer : address = Address.drive ∧ function = Function.readWriteBlock
  · exact .inr ⟨hanswer.1, .inl hanswer.2⟩
  rw [if_neg hanswer] at h
  by_cases hexception : address = Address.drive ∧ function = Function.pollException
  · exact .inr ⟨hexception.1, .inr hexception.2⟩
  · rw [if_neg hexception] at h
    exact absurd h Extent.noConfusion

/-- Fewer bytes than the shortest frame hide nothing. It ends the search from
    the front. -/
theorem isFree_of_short {bytes : List UInt8} (h : bytes.length < Frame.minLength) :
    IsFree bytes := by
  intro part frame hpart hfills
  have hmin := (le_of_extent_known hfills.1).1
  have hlen := hpart.length_le
  omega

/-- A place is ruled out if the frame that would start there runs beyond the
    bytes, or cannot be read. -/
theorem isFree_cons {first : UInt8} {rest : List UInt8}
    (hfirst : ∀ n, extent (first :: rest) = .known n → n ≤ (first :: rest).length →
      (Frame.decode ((first :: rest).take n)).toOption = none)
    (hrest : IsFree rest) : IsFree (first :: rest) := by
  intro part frame hpart hfills
  rcases List.infix_cons_iff.mp hpart with hfront | hlater
  · -- The extent of the part is settled, and so is that of all the bytes.
    rcases hfront with ⟨more, hmore⟩
    have hextent : extent (first :: rest) = .known part.length := by
      rw [← hmore, extent_append part more (by rw [hfills.1]; exact Extent.noConfusion), hfills.1]
    have hlen : part.length ≤ (first :: rest).length := by
      rw [← hmore, List.length_append]
      omega
    have hunread := hfirst part.length hextent hlen
    rw [← hmore, List.take_left, hfills.2] at hunread
    exact absurd hunread (Option.some_ne_none frame)
  · exact hrest part frame hlater hfills

/-- Most places are ruled out by two bytes. -/
theorem isFree_skip {address function : UInt8} {rest : List UInt8}
    (h : ¬IsHeader address function) (hrest : IsFree (function :: rest)) :
    IsFree (address :: function :: rest) := by
  refine isFree_cons (fun n hknown => ?_) hrest
  exact absurd (isHeader_of_known hknown) h

/-! ## Broadcasts -/

/-- What is known of a status if its broadcast is to hide nothing. -/
structure DoorStatus.IsHarmless (status : DoorStatus) : Prop where
  code_mem : status.code ∈ StateCode.named
  at_sixteen : status.target = 16 → status.position = 16 ∧ status.code = .stopped
  past_sixteen : status.target = 0 → status.position = 16 → status.code = .closing
  at_two : status.target = 2 → status.position = 2

/-- Flag byte of the light. -/
def DoorStatus.lightByte (status : DoorStatus) : UInt8 :=
  if status.light then 0x10 else 0

/-- The bytes of a status, one by one. Four of them depend on the door, and the
    search has to deal with these. -/
theorem body_status (status : DoorStatus) :
    (DriveMessage.status ⟨status.toRegisters⟩).frame.body =
      [0x00, 0x10, 0x9D, 0x31, 0, 9, 18, 0, 0, status.target, status.position,
        status.code.toByte, 0, 0, 0, 0, 0, 0, 0, 0, status.lightByte, 0, 0, 0, 0] := by
  have hlight : Word.bytes (if status.light then DoorStatus.lightBit else 0)
      = [0, status.lightByte] := by
    rw [DoorStatus.lightByte]
    cases status.light <;> rfl
  have hregisters : status.toRegisters.toList = [0, Word.join status.target status.position,
      Word.join status.code.toByte 0, 0, 0, 0, if status.light then DoorStatus.lightBit else 0,
      0, 0] := rfl
  have hbody : (DriveMessage.status ⟨status.toRegisters⟩).frame.body
      = 0x00 :: 0x10 :: (Broadcast.mk status.toRegisters).payload := rfl
  rw [hbody, Broadcast.payload, hregisters, Word.toBytes]
  simp only [List.flatMap_cons, List.flatMap_nil, Word.bytes_join, hlight]
  rfl

/-- The bytes in which something could be hidden: all but the last one. -/
theorem dropLast_toBytes (frame : Frame) :
    frame.toBytes.dropLast = frame.body ++ [(Checksum.over frame.body).toUInt8] := by
  rw [Frame.toBytes, Frame.trailer, List.dropLast_append_cons]
  rfl

/-- The length of a broadcast is read off its fifth byte behind the header. -/
theorem known_of_broadcast {function : UInt8} {rest : List UInt8} {n : Nat} (count : UInt8)
    (hcount : rest[4]? = some count) (h : extent (0 :: function :: rest) = .known n) :
    n = 9 + count.toNat := by
  rcases isHeader_of_known h with ⟨_, hfunction⟩ | ⟨haddress, _⟩
  · rw [extent, extentOf, if_pos ⟨rfl, hfunction⟩, hcount] at h
    exact (Extent.le_of_ofLength_known h).1
  · exact absurd haddress (by decide)

theorem hidesNone_status {status : DoorStatus} (h : status.IsHarmless) :
    (DriveMessage.status ⟨status.toRegisters⟩).frame.HidesNone := by
  have hcode : ∀ code ∈ StateCode.named, code.toByte ≠ 0x10 ∧ code.toByte ≠ 0x17 ∧
      code.toByte ≠ 0x97 := by decide
  have hcode := hcode status.code h.code_mem
  have hfree : IsFree (DriveMessage.status ⟨status.toRegisters⟩).frame.toBytes.dropLast := by
    rw [dropLast_toBytes, body_status]
    generalize (Checksum.over _).toUInt8 = low
    simp only [List.cons_append, List.nil_append]
    -- The first place announces the whole message, which ends behind these bytes.
    refine isFree_cons (fun n hknown hle => ?_) ?_
    · have hn := known_of_broadcast 18 rfl hknown
      have hlen : n ≤ 26 := hle
      exact absurd (hn ▸ hlen) (by decide)
    iterate 7 refine isFree_skip (by decide) ?_
    -- Here a header needs target 16.
    refine isFree_cons (fun n hknown hle => ?_) ?_
    · have hn := known_of_broadcast 0 rfl hknown
      rcases isHeader_of_known hknown with ⟨_, htarget⟩ | ⟨hzero, _⟩
      · rcases h.at_sixteen htarget with ⟨hposition, hstopped⟩
        have hunread : (Frame.decode [0x00, 0x10, 0x10, 0, 0, 0, 0, 0, 0]).toOption = none := by
          decide +kernel
        rw [hn, htarget, hposition, hstopped]
        exact hunread
      · exact absurd hzero (by decide)
    -- Here it needs target 0 with position 16, or target 2 with position 23 or 151.
    refine isFree_cons (fun n hknown hle => ?_) ?_
    · rcases isHeader_of_known hknown with ⟨htarget, hposition⟩ | ⟨htarget, hposition⟩
      · rw [htarget] at hknown
        have hn := known_of_broadcast 0 rfl hknown
        have hunread : (Frame.decode [0x00, 0x10, 0x02, 0, 0, 0, 0, 0, 0]).toOption = none := by
          decide +kernel
        rw [hn, htarget, hposition, h.past_sixteen htarget hposition]
        exact hunread
      · rw [h.at_two htarget] at hposition
        exact absurd hposition (by decide)
    -- A code is never the second byte of a header, and no more is a zero.
    refine isFree_skip (not_isHeader_of_function hcode _) ?_
    have hzero := not_isHeader_of_function (by decide : (0 : UInt8) ≠ 0x10 ∧ _)
    iterate 8 refine isFree_skip (hzero _) ?_
    -- The light makes a header, but of a frame that is too long.
    refine isFree_cons (fun n hknown hle => ?_) ?_
    · have hn := known_of_broadcast low rfl hknown
      have hlen : n ≤ 7 := hle
      omega
    iterate 2 refine isFree_skip (hzero _) ?_
    exact isFree_of_short (Nat.lt_succ_self 4)
  exact hfree

/-! ## Answers -/

/-- What stands in the answer to a bus scan, but for the check. -/
theorem body_scan (drive : Drive) :
    (DriveMessage.answer (drive.respond .busScan)).frame.body =
      [0x02, 0x17, 10, drive.syncCounter, 0, drive.commandCounter, 5, 0x04, 0x30, 0x10, 0xFF,
        0xA8, 0x45] := by
  have hbody : (DriveMessage.answer (drive.respond .busScan)).frame.body
      = 0x02 :: 0x17 :: 10 :: Word.toBytes [Word.join drive.syncCounter 0,
          Word.join drive.commandCounter 5, 0x0430, 0x10FF, 0xA845] := rfl
  rw [hbody, Word.toBytes]
  simp only [List.flatMap_cons, List.flatMap_nil, Word.bytes_join]
  rfl

/-- What stands in the answer to a command poll, but for the check, while the
    drive asks for nothing. -/
theorem body_poll {drive : Drive} (h : drive.driveRequest = 0) :
    (DriveMessage.answer (drive.respond .commandPoll)).frame.body =
      [0x02, 0x17, 16, drive.syncCounter, 0, drive.commandCounter, 1, 0, 0, 0, 0, 0, 0, 0, 0, 0,
        0, 0, 0] := by
  have hbody : (DriveMessage.answer (drive.respond .commandPoll)).frame.body
      = 0x02 :: 0x17 :: 16 :: Word.toBytes [Word.join drive.syncCounter 0,
          Word.join drive.commandCounter 1, drive.driveRequest, 0, 0, 0, 0, 0] := rfl
  rw [hbody, h, Word.toBytes]
  simp only [List.flatMap_cons, List.flatMap_nil, Word.bytes_join]
  rfl

theorem hidesNone_scan (drive : Drive) :
    (DriveMessage.answer (drive.respond .busScan)).frame.HidesNone := by
  have hfree : IsFree (DriveMessage.answer (drive.respond .busScan)).frame.toBytes.dropLast := by
    rw [dropLast_toBytes, body_scan]
    generalize (Checksum.over _).toUInt8 = low
    simp only [List.cons_append, List.nil_append]
    refine isFree_cons (fun n hknown hle => ?_) ?_
    · have hn : 15 = n := Extent.known.inj hknown
      have hlen : n ≤ 14 := hle
      omega
    refine isFree_skip (by decide) (isFree_skip (not_isHeader_of_address (by decide) _)
      (isFree_skip (not_isHeader_of_function (by decide) _) ?_))
    -- With 16 commands taken there is a header, but of a frame that is too long.
    refine isFree_cons (fun n hknown hle => ?_) ?_
    · have hn := known_of_broadcast 0xFF rfl hknown
      have hlen : n ≤ 10 := hle
      exact absurd (hn ▸ hlen) (by decide)
    refine isFree_skip (not_isHeader_of_function (by decide) _) ?_
    iterate 4 refine isFree_skip (by decide) ?_
    exact isFree_of_short (Nat.lt_succ_self 4)
  exact hfree

theorem hidesNone_poll {drive : Drive} (h : drive.driveRequest = 0) :
    (DriveMessage.answer (drive.respond .commandPoll)).frame.HidesNone := by
  have hfree : IsFree
      (DriveMessage.answer (drive.respond .commandPoll)).frame.toBytes.dropLast := by
    rw [dropLast_toBytes, body_poll h]
    generalize (Checksum.over _).toUInt8 = low
    simp only [List.cons_append, List.nil_append]
    refine isFree_cons (fun n hknown hle => ?_) ?_
    · have hn : 21 = n := Extent.known.inj hknown
      have hlen : n ≤ 20 := hle
      omega
    refine isFree_skip (by decide) (isFree_skip (not_isHeader_of_address (by decide) _)
      (isFree_skip (not_isHeader_of_function (by decide) _) ?_))
    -- With 16 commands taken there is a header, but the frame fails its check.
    refine isFree_cons (fun n hknown hle => ?_) ?_
    · have hn := known_of_broadcast 0 rfl hknown
      rcases isHeader_of_known hknown with ⟨_, hcommand⟩ | ⟨hzero, _⟩
      · have hunread : (Frame.decode [0x00, 0x10, 0x01, 0, 0, 0, 0, 0, 0]).toOption = none := by
          decide +kernel
        rw [hn, hcommand]
        exact hunread
      · exact absurd hzero (by decide)
    refine isFree_skip (not_isHeader_of_function (by decide) _) ?_
    iterate 10 refine isFree_skip (by decide) ?_
    exact isFree_of_short (Nat.lt_succ_self 4)
  exact hfree

/-- Whatever its counters, a drive that asks for nothing hides nothing in an
    answer. -/
theorem hidesNone_answer {drive : Drive} (h : drive.driveRequest = 0) (kind : PollKind) :
    (DriveMessage.answer (drive.respond kind)).frame.HidesNone := by
  cases kind with
  | busScan => exact hidesNone_scan drive
  | commandPoll => exact hidesNone_poll h

/-! ## Usual doors -/

theorem Door.isHarmless_of_isUsual {door : Door} (h : door.IsUsual) : door.status.IsHarmless := by
  have hposition : door.status.position = door.position := by
    refine if_pos ?_
    rw [UInt8.le_iff_toNat_le]
    exact h.position_le
  have htargetLe : door.target.toNat ≤ 200 := by
    rcases h.target_mem with heq | hmem
    · rw [← heq]
      exact h.position_le
    · exact le_of_mem_places hmem
  have htarget : door.status.target = door.target := by
    refine if_pos ?_
    rw [UInt8.le_iff_toNat_le]
    exact htargetLe
  -- A target that is not a usual place is where the door stands.
  have hrest : door.target ∉ places → door.position = door.target := by
    intro haway
    rcases h.target_mem with heq | hmem
    · exact heq
    · exact absurd hmem haway
  refine ⟨door.stateCode_mem, ?_, ?_, ?_⟩
  · rw [htarget, hposition]
    intro hsixteen
    have hstands := hrest (by rw [hsixteen]; decide)
    refine ⟨by rw [hstands, hsixteen], code_of_stopped hstands ?_⟩
    rw [hstands, hsixteen]
    decide
  · rw [htarget, hposition]
    intro hzero hsixteen
    exact code_of_closing (by rw [hzero, hsixteen]; decide)
  · rw [htarget, hposition]
    intro htwo
    rw [hrest (by rw [htwo]; decide), htwo]

end DoorBus

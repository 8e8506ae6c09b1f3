import DoorBus.Mailbox.StatusWord
import DoorBus.Proofs.Door.Status

/-!
# What the Status Word Keeps

The status word has a byte each for position, target and code, and a bit each
for four flags. All of them are read back as they were written. What is lost is
lost in the reading: the status is made anew from the bytes, its coarse state is
an error or what goes with the code, and a snapshot that is not valid has no
status at all.

So there are snapshots that are not read back as they were. But the record of a
drive never leads to one, as long as the status in it is one that a drive can
have described.

## Theorems

* `toNat_ofBytes`: A word as a number.
* `positionOf_ofBytes`, `targetOf_ofBytes`, `codeOf_ofBytes`,
  `flagsOf_ofBytes`: The bytes of a word are read back.
* `hasFlag_flagIf`: So are the flags.
* `ofWord_toWord`: What becomes of a snapshot.
* `ofWord_toWord_of_base`: Snapshots that are read back.
* `ofWord_toWord_record`: The view of a host is one of them.
-/

namespace DoorBus

namespace StatusWord

/-! ## Bytes and flags -/

/-- A byte is put above what there is. The two share no bit, so that it is
    added. -/
theorem toNat_or_shiftLeft (width : Nat) {low shift : UInt32} (byte : UInt8)
    (hshift : shift.toNat = width) (hwidth : width ≤ 24) (hlow : low.toNat < 1 <<< width) :
    (low ||| byte.toUInt32 <<< shift).toNat = low.toNat + byte.toNat <<< width := by
  have hroom : byte.toNat <<< width < 2 ^ 32 := by
    rw [Nat.shiftLeft_eq]
    calc byte.toNat * 2 ^ width
      _ < 2 ^ 8 * 2 ^ width := Nat.mul_lt_mul_of_pos_right byte.toNat_lt (Nat.two_pow_pos _)
      _ ≤ 2 ^ 8 * 2 ^ 24 := Nat.mul_le_mul_left _ (Nat.pow_le_pow_right (by decide) hwidth)
      _ = 2 ^ 32 := by decide
  rw [Nat.shiftLeft_eq, Nat.one_mul] at hlow
  rw [UInt32.toNat_or, UInt32.toNat_shiftLeft, UInt8.toNat_toUInt32, hshift,
    Nat.mod_eq_of_lt (Nat.lt_of_le_of_lt hwidth (by decide)), Nat.mod_eq_of_lt hroom, Nat.or_comm,
    ← Nat.shiftLeft_add_eq_or_of_lt hlow, Nat.add_comm]

/-- A word as a number. -/
theorem toNat_ofBytes (position target code flags : UInt8) :
    (ofBytes position target code flags).toNat
      = position.toNat + target.toNat <<< 8 + code.toNat <<< 16 + flags.toNat <<< 24 := by
  have hposition : position.toNat < 256 := position.toNat_lt
  have htarget : target.toNat < 256 := target.toNat_lt
  have hcode : code.toNat < 256 := code.toNat_lt
  have hone : (position.toUInt32 ||| target.toUInt32 <<< 8).toNat
      = position.toNat + target.toNat <<< 8 :=
    toNat_or_shiftLeft 8 target rfl (by decide) hposition
  have htwo : (position.toUInt32 ||| target.toUInt32 <<< 8 ||| code.toUInt32 <<< 16).toNat
      = position.toNat + target.toNat <<< 8 + code.toNat <<< 16 := by
    rw [toNat_or_shiftLeft 16 code rfl (by decide) (by rw [hone]; omega), hone]
  rw [ofBytes, toNat_or_shiftLeft 24 flags rfl (by decide) (by rw [htwo]; omega), htwo]

/-- A byte is taken from somewhere in the word. -/
theorem toNat_shiftRight (width : Nat) {shift : UInt32} (word : UInt32)
    (hshift : shift.toNat = width) (hwidth : width ≤ 24) :
    (word >>> shift).toUInt8.toNat = word.toNat >>> width % 256 := by
  rw [UInt32.toNat_toUInt8, UInt32.toNat_shiftRight, hshift,
    Nat.mod_eq_of_lt (Nat.lt_of_le_of_lt hwidth (by decide))]

section

variable (position target code flags : UInt8)

/-- The bytes do not overlap, so each of them is a digit of the word in base 256. -/
theorem positionOf_ofBytes : positionOf (ofBytes position target code flags) = position := by
  have hposition : position.toNat < 256 := position.toNat_lt
  apply UInt8.toNat.inj
  rw [positionOf, UInt32.toNat_toUInt8, toNat_ofBytes]
  omega

theorem targetOf_ofBytes : targetOf (ofBytes position target code flags) = target := by
  have hposition : position.toNat < 256 := position.toNat_lt
  have htarget : target.toNat < 256 := target.toNat_lt
  apply UInt8.toNat.inj
  rw [targetOf, toNat_shiftRight 8 _ rfl (by decide), toNat_ofBytes]
  omega

theorem codeOf_ofBytes : codeOf (ofBytes position target code flags) = code := by
  have hposition : position.toNat < 256 := position.toNat_lt
  have htarget : target.toNat < 256 := target.toNat_lt
  have hcode : code.toNat < 256 := code.toNat_lt
  apply UInt8.toNat.inj
  rw [codeOf, toNat_shiftRight 16 _ rfl (by decide), toNat_ofBytes]
  omega

theorem flagsOf_ofBytes : flagsOf (ofBytes position target code flags) = flags := by
  have hposition : position.toNat < 256 := position.toNat_lt
  have htarget : target.toNat < 256 := target.toNat_lt
  have hcode : code.toNat < 256 := code.toNat_lt
  have hflags : flags.toNat < 256 := flags.toNat_lt
  apply UInt8.toNat.inj
  rw [flagsOf, toNat_shiftRight 24 _ rfl (by decide), toNat_ofBytes]
  omega

end

/-- The four flags do not touch each other. -/
theorem hasFlag_flagIf : ∀ light connected error valid : Bool,
    let flags := flagIf light lightFlag ||| flagIf connected connectedFlag |||
      flagIf error errorFlag ||| flagIf valid validFlag
    hasFlag flags lightFlag = light ∧ hasFlag flags connectedFlag = connected ∧
      hasFlag flags errorFlag = error ∧ hasFlag flags validFlag = valid := by
  decide

end StatusWord

/-! ## Snapshots -/

namespace Snapshot

open StatusWord

/-- What becomes of a snapshot in the word. -/
theorem ofWord_toWord (snapshot : Snapshot) :
    let status := if snapshot.valid then snapshot.status.reread else .unknown
    ofWord snapshot.toWord =
      { status := if snapshot.status.state = .error then status.withState .error else status
        connected := snapshot.connected
        valid := snapshot.valid } := by
  rcases hasFlag_flagIf snapshot.status.light snapshot.connected
    (snapshot.status.state = .error) snapshot.valid with ⟨hlight, hconnected, herror, hvalid⟩
  rw [ofWord, toWord, flagsOf_ofBytes, positionOf_ofBytes, targetOf_ofBytes, codeOf_ofBytes, flags]
  simp only [hlight, hconnected, herror, hvalid, decide_eq_true_eq]
  rfl

/-- A status that a drive can describe is read back, and so is the unknown one
    as long as the snapshot is not valid. A fault on top of it is no matter. -/
theorem ofWord_toWord_of_base {base : DoorStatus} {fault connected valid : Bool}
    (hvalid : valid = true → base.IsDescribed) (hinvalid : valid = false → base = .unknown) :
    let snapshot : Snapshot := ⟨if fault then base.withState .error else base, connected, valid⟩
    ofWord snapshot.toWord = snapshot := by
  intro snapshot
  have hbase : (if valid then snapshot.status.reread else .unknown) = base := by
    -- Reading back does not look at the coarse state.
    have hreread : snapshot.status.reread = base.reread := by
      cases fault <;> rfl
    cases valid with
    | true => exact hreread.trans (DoorStatus.reread_of_isDescribed (hvalid rfl))
    | false => exact (hinvalid rfl).symm
  have hstate : base.state ≠ .error := by
    cases valid with
    | true => exact DoorStatus.state_of_isDescribed (hvalid rfl)
    | false =>
        rw [hinvalid rfl]
        exact DoorState.noConfusion
  rw [ofWord_toWord, hbase]
  cases fault with
  | true => rfl
  | false => exact congrArg (Snapshot.mk · connected valid) (if_neg hstate)

/-- The view of a host is read back, if the record holds a status that a drive
    can describe, or none. -/
theorem ofWord_toWord_record {record : DriveRecord}
    (h : ∀ status, record.lastStatus = some status → status.IsDescribed) :
    ofWord record.snapshot.toWord = record.snapshot := by
  refine ofWord_toWord_of_base (fun hvalid => ?_) fun hinvalid => ?_
  · rcases Option.isSome_iff_exists.mp hvalid with ⟨status, hstatus⟩
    rw [hstatus]
    exact h status hstatus
  · rw [Option.isSome_eq_false_iff, Option.isNone_iff_eq_none] at hinvalid
    rw [hinvalid]
    rfl

end Snapshot

end DoorBus

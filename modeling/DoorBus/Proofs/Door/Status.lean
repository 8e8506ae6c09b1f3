import DoorBus.Door.Status
import DoorBus.Proofs.Wire.Word

/-!
# Statuses That a Drive Can Describe

A status that comes from the drive is made from two positions, the byte of a
code and the light. So its positions are in range, its code is canonical, and
its coarse state goes with the code and is never an error. Such a status can be
made again from what it holds. Other statuses change in that, and the last one
to do so is any status with an error put on it.

## Main definitions

* `DoorStatus.IsDescribed`: A status that a drive can describe.
* `DoorStatus.reread`: A status made again from what it holds.

## Theorems

* `toByte_ofByte`: A code is written as the byte that it was read from.
* `ofCode_ne_error`: No code stands for an error.
* `state_of_isDescribed`, `reread_of_isDescribed`: Statuses of a drive.
* `ofRegisters_toRegisters`: The block of a status is read as it is made again.
-/

namespace DoorBus

/-- A code is written as the byte that it was read from. -/
theorem StateCode.toByte_ofByte (byte : UInt8) : (ofByte byte).toByte = byte := by
  rw [ofByte]
  cases hfind : named.find? (·.toByte = byte) with
  | none => rfl
  | some code =>
      have hcode := List.find?_some hfind
      exact of_decide_eq_true hcode

theorem DoorState.ofCode_ne_error (code : StateCode) : ofCode code ≠ .error := by
  cases code <;> exact DoorState.noConfusion

namespace DoorStatus

/-- A status that a drive can describe. -/
def IsDescribed (status : DoorStatus) : Prop :=
  ∃ position target byte light, status = ofCode position target (.ofByte byte) light

/-- A status made again from what it holds. Its coarse state is not looked
    at. -/
def reread (status : DoorStatus) : DoorStatus :=
  ofCode status.position status.target (.ofByte status.code.toByte) status.light

/-- An error is only ever put on top of a status. -/
theorem state_of_isDescribed {status : DoorStatus} (h : status.IsDescribed) :
    status.state ≠ .error := by
  rcases h with ⟨position, target, byte, light, rfl⟩
  exact DoorState.ofCode_ne_error _

theorem min_min_maxPosition (position : UInt8) :
    min (min position maxPosition) maxPosition = min position maxPosition := by
  by_cases hrange : position ≤ maxPosition
  · have hmin : min position maxPosition = position := if_pos hrange
    rw [hmin, hmin]
  · have hmin : min position maxPosition = maxPosition := if_neg hrange
    rw [hmin]
    rfl

/-- Positions that have been cut off once stay as they are, and so does a code
    that was read from a byte. -/
theorem reread_of_isDescribed {status : DoorStatus} (h : status.IsDescribed) :
    status.reread = status := by
  rcases h with ⟨position, target, byte, light, rfl⟩
  have hcode : StateCode.ofByte (StateCode.ofByte byte).toByte = .ofByte byte := by
    rw [StateCode.toByte_ofByte]
  rw [reread, ofCode]
  simp only [hcode, ofCode, min_min_maxPosition]

/-- Each field has a place of its own in the block, so that only what is made
    again can differ. -/
theorem ofRegisters_toRegisters (status : DoorStatus) :
    ofRegisters status.toRegisters = status.reread := by
  have hlight : ((if status.light then lightBit else 0) &&& lightBit != 0) = status.light := by
    cases status.light <;> rfl
  have hposition : Word.low status.toRegisters[1] = status.position := Word.low_join _ _
  have htarget : Word.high status.toRegisters[1] = status.target := Word.high_join _ _
  have hcode : Word.high status.toRegisters[2] = status.code.toByte := Word.high_join _ _
  have hflag : (status.toRegisters[6] &&& lightBit != 0) = status.light := hlight
  rw [ofRegisters, hposition, htarget, hcode, hflag, reread]

end DoorStatus

end DoorBus

import DoorBus.Proofs.Mailbox.StatusWord

/-!
# Values That Packing Keeps

A status is packed into a block of registers, a snapshot into a word, and both
packings lose something. What they keep is said here without packing anything,
by looking at the fields.

Of a status this is easy: the positions are in range, and the code and the
coarse state are what is read from the byte of the code. These are the statuses
that a drive can describe, said in another way.

Of a snapshot it depends on whether it is valid. If it is, the word holds its
status, and if it is not, the word holds none and the unknown one is read. In
either case the error is a flag of its own, so it may stand in place of the
coarse state.

Reading always gives a value that is kept. Thus, a value is kept just if it has
been read from something, and reading again what was read changes nothing.

## Main definitions

* `DoorStatus.IsWellFormed`: The fields of a status go together.
* `DoorStatus.IsUpToError`: A status, or that status with an error put on it.
* `Snapshot.IsLossless`: The fields of a snapshot go together.

## Theorems

* `isDescribed_iff`: Statuses that a drive can describe, by their fields.
* `reread_eq_iff`: Statuses that are the same when made again.
* `isLossless_ofWord`: Words hold nothing else.
* `ofWord_toWord_of_isLossless`: Such snapshots are kept.
* `readBack_iff`: What the two packings keep.
-/

namespace DoorBus

namespace DoorStatus

/-! ## Statuses -/

/-- The fields of a status go together. -/
structure IsWellFormed (status : DoorStatus) : Prop where
  position_le : status.position ≤ 200
  target_le : status.target ≤ 200
  ofByte_toByte : StateCode.ofByte status.code.toByte = status.code
  state_eq : status.state = .ofCode status.code

/-- A status, or that status with an error put on it. -/
def IsUpToError (status base : DoorStatus) : Prop :=
  status = base ∨ status = base.withState .error

theorem min_maxPosition_le (position : UInt8) : min position maxPosition ≤ 200 := by
  by_cases hrange : position ≤ maxPosition
  · have hmin : min position maxPosition = position := if_pos hrange
    rw [hmin]
    exact hrange
  · have hmin : min position maxPosition = maxPosition := if_neg hrange
    rw [hmin]
    exact UInt8.le_refl _

theorem isWellFormed_of_isDescribed {status : DoorStatus} (h : status.IsDescribed) :
    status.IsWellFormed := by
  rcases h with ⟨position, target, byte, light, rfl⟩
  -- Each field is made in such a way.
  constructor
  · exact min_maxPosition_le position
  · exact min_maxPosition_le target
  · rw [ofCode, StateCode.toByte_ofByte]
  · rfl

/-- When the fields go together, making a status again gives the same one. -/
theorem reread_of_isWellFormed {status : DoorStatus} (h : status.IsWellFormed) :
    status.reread = status := by
  have hposition : min status.position maxPosition = status.position := if_pos h.position_le
  have htarget : min status.target maxPosition = status.target := if_pos h.target_le
  rw [reread, ofCode, hposition, htarget, h.ofByte_toByte, ← h.state_eq]

theorem reread_isDescribed (status : DoorStatus) : status.reread.IsDescribed :=
  ⟨_, _, _, _, rfl⟩

/-- The statuses of a drive are those whose fields go together. The fields can
    be looked at, and a drive cannot. -/
theorem isDescribed_iff (status : DoorStatus) : status.IsDescribed ↔ status.IsWellFormed := by
  constructor
  · exact isWellFormed_of_isDescribed
  · intro h
    rw [← reread_of_isWellFormed h]
    exact reread_isDescribed status

theorem reread_eq_iff (status : DoorStatus) : status.reread = status ↔ status.IsWellFormed := by
  constructor
  · intro h
    rw [← isDescribed_iff, ← h]
    exact reread_isDescribed status
  · exact reread_of_isWellFormed

end DoorStatus

/-! ## Snapshots -/

namespace Snapshot

open StatusWord

/-- The fields of a snapshot go together. -/
def IsLossless (snapshot : Snapshot) : Prop :=
  (snapshot.valid = true ∧ ∃ base : DoorStatus, base.IsWellFormed ∧
    snapshot.status.IsUpToError base) ∨
  (snapshot.valid = false ∧ snapshot.status.IsUpToError .unknown)

theorem isLossless_ofWord (word : UInt32) : (ofWord word).IsLossless := by
  -- The flag is read last, whatever status it comes on top of.
  have hflag : ∀ base : DoorStatus,
      (if hasFlag (flagsOf word) errorFlag then base.withState .error else base).IsUpToError
        base := by
    intro base
    split
    · exact .inr rfl
    · exact .inl rfl
  -- The status of a valid word is made from its bytes, and any other is unknown.
  cases hvalid : hasFlag (flagsOf word) validFlag with
  | true =>
      refine .inl ⟨hvalid, .ofCode (positionOf word) (targetOf word) (.ofByte (codeOf word))
        (hasFlag (flagsOf word) lightFlag), ?_, ?_⟩
      · rw [← DoorStatus.isDescribed_iff]
        exact ⟨_, _, _, _, rfl⟩
      · simp only [ofWord, hvalid, if_true]
        exact hflag _
  | false =>
      refine .inr ⟨hvalid, ?_⟩
      simp only [ofWord, hvalid, Bool.false_eq_true, if_false]
      exact hflag _

/-- Whichever of the two the status is, the word brings back the same one. -/
theorem ofWord_toWord_of_isUpToError {snapshot : Snapshot} {base : DoorStatus}
    (hvalid : snapshot.valid = true → base.IsDescribed)
    (hinvalid : snapshot.valid = false → base = .unknown)
    (h : snapshot.status.IsUpToError base) : ofWord snapshot.toWord = snapshot := by
  rcases snapshot with ⟨status, connected, valid⟩
  rcases h with rfl | hfailed
  · exact @ofWord_toWord_of_base _ false connected valid hvalid hinvalid
  · change status = base.withState .error at hfailed
    rw [hfailed]
    exact @ofWord_toWord_of_base base true connected valid hvalid hinvalid

/-- Both sorts of snapshots are built on such a status, with or without an error
    on top. -/
theorem ofWord_toWord_of_isLossless {snapshot : Snapshot} (h : snapshot.IsLossless) :
    ofWord snapshot.toWord = snapshot := by
  rcases h with ⟨hvalid, base, hbase, hstatus⟩ | ⟨hvalid, hstatus⟩
  · refine ofWord_toWord_of_isUpToError (fun _ => (DoorStatus.isDescribed_iff base).mpr hbase)
      (fun hinvalid => ?_) hstatus
    rw [hvalid] at hinvalid
    exact absurd hinvalid Bool.noConfusion
  · refine ofWord_toWord_of_isUpToError (fun hvalid' => ?_) (fun _ => rfl) hstatus
    rw [hvalid] at hvalid'
    exact absurd hvalid' Bool.noConfusion

end Snapshot

/-- What the two packings keep, and that reading gives nothing else. -/
theorem readBack_iff :
    (∀ status : DoorStatus,
      DoorStatus.ofRegisters status.toRegisters = status ↔ status.IsWellFormed) ∧
    (∀ registers, (DoorStatus.ofRegisters registers).IsWellFormed) ∧
    (∀ snapshot : Snapshot, Snapshot.ofWord snapshot.toWord = snapshot ↔ snapshot.IsLossless) ∧
    (∀ word, (Snapshot.ofWord word).IsLossless) ∧
    (∀ word, Snapshot.ofWord (Snapshot.ofWord word).toWord = Snapshot.ofWord word) := by
  refine ⟨fun status => ?_, fun registers => ?_, fun snapshot => ?_, Snapshot.isLossless_ofWord,
    fun word => Snapshot.ofWord_toWord_of_isLossless (Snapshot.isLossless_ofWord word)⟩
  · rw [DoorStatus.ofRegisters_toRegisters]
    exact DoorStatus.reread_eq_iff status
  · rw [← DoorStatus.isDescribed_iff]
    exact ⟨_, _, _, _, rfl⟩
  · constructor
    -- What is kept has been read from its own word.
    · intro h
      rw [← h]
      exact Snapshot.isLossless_ofWord _
    · exact Snapshot.ofWord_toWord_of_isLossless

end DoorBus

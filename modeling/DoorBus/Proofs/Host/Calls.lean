import DoorBus.Host.Firmware
import DoorBus.Proofs.Door.Status

/-!
# Calls of a Host Program

A host program calls the firmware, one call after the other. What a call does
depends on which bridge was started and which mailbox was attached, and the
firmware keeps that in three places: two words say who runs the bus, and the
room for the bridge is used or not. The host program sees none of the three. It
only has the answers that it got.

Here the calls are described by these answers. The bridge is started if no call
for a bridge or a mailbox was granted before, and the table and the interval are
good. A mailbox is attached if no call for a bridge was granted before, and the
address is not zero. Everything else goes to the mailbox that was attached last,
or to the own one if there is none: a code is put into its action slot, its
drive request is emptied, and what the host is told of the door stands in its
status word. No other mailbox is touched. A call that is refused leaves the
firmware and the host as they were, so the calls behind it are answered as if it
had not been made.

That the three places say what the answers have said is an invariant. It holds
at the beginning, every call keeps it, and nothing outside of the firmware
concerns it. The small core may write its memory and the host may change its
state between any two calls.

## Main definitions

* `HostCall`, `HostAnswer`: Calls and their answers.
* `HostSide`: The firmware, and the state of the host.
* `HostRun`: What calls have led to, and how they were answered.
* `Firmware.read`, `Firmware.write`: A mailbox, by where it lies.
* `HostSide.AgreesBeside`: Nothing has changed but one mailbox.
* `HostStatus.Describes`: What a host has to be told of a status word.
* `HostCall.Complies`: What a call has to do, by the answers before it.
* `HostRun.Kept`: The invariant.

## Theorems

* `agreesBeside_write`: What is written to one mailbox is found there only.
* `toHost_describes`: The host is told what stands in the word.
* `validate_timingFor_iff`: Intervals that work.
* `init_cases`, `attach_cases`: All that the two calls can do.
* `kept_follow`: The invariant holds throughout.
* `side_of_refused`: A call that is refused changes nothing.
* `entries_follow`: Later answers do not depend on earlier entries.
* `complies_follow`: Calls do what they have to do.
-/

namespace DoorBus

variable {β : Type}

/-! ## Calls and answers -/

/-- What a host program can call. -/
inductive HostCall (β : Type)
  | init (table : Option (HostTable β)) (interval : Millis)
  | attach (address : MemoryAddress)
  | poll
  | enqueue (code : UInt16)
  | currentStatus
  | isConnected
  | takeDriveRequest

/-- What it gets. -/
inductive HostAnswer
  | granted (granted : Bool)
  | nothing
  | status (status : HostStatus)
  | connected (connected : Bool)
  | request (code : UInt16)
  deriving DecidableEq

/-- The firmware, and the state that the table of the host works on. -/
structure HostSide (β : Type) where
  firmware : Firmware β
  state : β

/-- A call, with its answer. -/
structure HostEntry (β : Type) where
  call : HostCall β
  answer : HostAnswer

/-- What calls have led to, and how they were answered, first one first. -/
structure HostRun (β : Type) where
  side : HostSide β
  entries : List (HostEntry β) := []

/-- What happens next: a call is made, or the memory of the small core and the
    state of the host change by themselves. -/
inductive HostTurn (β : Type)
  | call (call : HostCall β)
  | world (memory : MemoryAddress → Mailbox) (state : β)

namespace HostSide

/-- After a reset, whatever memory holds. -/
def boot (memory : MemoryAddress → Mailbox) (state : β) : HostSide β :=
  ⟨{ memory }, state⟩

/-- A call. -/
def call (side : HostSide β) : HostCall β → HostSide β × HostAnswer
  | .init table interval =>
    let (firmware, state, granted) := side.firmware.init table interval side.state
    (⟨firmware, state⟩, .granted granted)
  | .attach address =>
    let (firmware, granted) := side.firmware.attach address
    (⟨firmware, side.state⟩, .granted granted)
  | .poll =>
    let (firmware, state) := side.firmware.poll side.state
    (⟨firmware, state⟩, .nothing)
  | .enqueue code => (⟨side.firmware.enqueue code, side.state⟩, .nothing)
  | .currentStatus => (side, .status side.firmware.currentStatus)
  | .isConnected => (side, .connected side.firmware.isConnected)
  | .takeDriveRequest =>
    let (firmware, code) := side.firmware.takeDriveRequest
    (⟨firmware, side.state⟩, .request code)

end HostSide

namespace HostEntry

/-- Whether the bridge was started. -/
def isStarted : HostEntry β → Bool
  | ⟨.init _ _, .granted granted⟩ => granted
  | _ => false

/-- The address that was attached, if one was. -/
def attached? : HostEntry β → Option MemoryAddress
  | ⟨.attach address, .granted true⟩ => some address
  | _ => none

/-- The address that was attached last, if any was. -/
def lastAttached (entries : List (HostEntry β)) : Option MemoryAddress :=
  (entries.filterMap attached?).getLast?

end HostEntry

namespace HostRun

/-- After a reset, with no call made yet. -/
def boot (memory : MemoryAddress → Mailbox) (state : β) : HostRun β where
  side := .boot memory state

/-- One turn. -/
def turn (run : HostRun β) : HostTurn β → HostRun β
  | .call call =>
    { side := (run.side.call call).1
      entries := run.entries ++ [⟨call, (run.side.call call).2⟩] }
  | .world memory state => { run with side := ⟨{ run.side.firmware with memory }, state⟩ }

/-- Turns, one after the other. -/
def follow (run : HostRun β) (turns : List (HostTurn β)) : HostRun β :=
  turns.foldl turn run

end HostRun

/-! ## Mailboxes -/

namespace Firmware

/-- The mailbox at an address, or the own one. -/
def read (firmware : Firmware β) : Option MemoryAddress → Mailbox
  | some address => firmware.memory address
  | none => firmware.own

/-- Change the mailbox at an address, or the own one. -/
def write (firmware : Firmware β) (mailbox : Mailbox) : Option MemoryAddress → Firmware β
  | some address => firmware.writeMemory address mailbox
  | none => { firmware with own := mailbox }

variable (firmware : Firmware β)

/-- Calls of the host go where the word says. -/
theorem mailbox_eq_read : firmware.mailbox = firmware.read firmware.selection.region := rfl

theorem setMailbox_eq_write (mailbox : Mailbox) :
    firmware.setMailbox mailbox = firmware.write mailbox firmware.selection.region := rfl

section

variable (mailbox : Mailbox) (place : Option MemoryAddress)

@[simp]
theorem selection_write : (firmware.write mailbox place).selection = firmware.selection := by
  cases place <;> rfl

@[simp]
theorem bridge_write : (firmware.write mailbox place).bridge = firmware.bridge := by
  cases place <;> rfl

@[simp]
theorem read_write : (firmware.write mailbox place).read place = mailbox := by
  cases place with
  | none => rfl
  | some address => exact if_pos rfl

/-- The own mailbox lies at no address, so that places do not overlap. -/
theorem read_write_of_ne {other : Option MemoryAddress} (h : other ≠ place) :
    (firmware.write mailbox place).read other = firmware.read other := by
  cases place with
  | none =>
      cases other with
      | none => exact absurd rfl h
      | some address => rfl
  | some written =>
      cases other with
      | none => rfl
      | some address => exact if_neg fun hsame => h (congrArg some hsame)

end

end Firmware

/-- Two sides that differ in the mailbox at one place at most. -/
structure HostSide.AgreesBeside (place : Option MemoryAddress) (before after : HostSide β) :
    Prop where
  read_eq : ∀ other, other ≠ place → after.firmware.read other = before.firmware.read other
  selection_eq : after.firmware.selection = before.firmware.selection
  bridge_eq : after.firmware.bridge = before.firmware.bridge
  state_eq : after.state = before.state

/-- A write is found at its place only, so this is all that a call to a mailbox
    may change. -/
theorem HostSide.agreesBeside_write (side : HostSide β) (mailbox : Mailbox)
    (place : Option MemoryAddress) :
    AgreesBeside place side ⟨side.firmware.write mailbox place, side.state⟩ where
  read_eq _ hother := side.firmware.read_write_of_ne mailbox place hother
  selection_eq := side.firmware.selection_write mailbox place
  bridge_eq := side.firmware.bridge_write mailbox place
  state_eq := rfl

/-! ## The status -/

section

open StatusWord

/-- What a host has to be told of a status word, by the bytes of the word. A
    word that is not valid tells of the link, and of a fault if there is one,
    and of nothing else. Positions end at the open end. -/
structure HostStatus.Describes (status : HostStatus) (word : UInt32) : Prop where
  connected_eq : status.connected = hasFlag (flagsOf word) connectedFlag
  valid_eq : status.valid = hasFlag (flagsOf word) validFlag
  known : status.valid = true →
    status.position = min (positionOf word) DoorStatus.maxPosition ∧
      status.target = min (targetOf word) DoorStatus.maxPosition ∧
      status.code = codeOf word ∧ status.light = hasFlag (flagsOf word) lightFlag
  unknown : status.valid = false →
    status.position = 0 ∧ status.target = 0 ∧ status.code = 0xFF ∧ status.light = false
  state_eq : status.state =
    if hasFlag (flagsOf word) errorFlag then 3
    else if status.valid then (DoorState.ofCode (.ofByte (codeOf word))).toByte
    else 4

/-- The flag for an error goes before the code, and a word that is not valid has
    no code. -/
theorem Snapshot.status_ofWord (word : UInt32) :
    (ofWord word).status =
      if hasFlag (flagsOf word) validFlag then
        (DoorStatus.ofCode (positionOf word) (targetOf word) (.ofByte (codeOf word))
          (hasFlag (flagsOf word) lightFlag)).withState
          (if hasFlag (flagsOf word) errorFlag then .error else .ofCode (.ofByte (codeOf word)))
      else
        DoorStatus.unknown.withState
          (if hasFlag (flagsOf word) errorFlag then .error else .unknown) := by
  rw [ofWord]
  cases hasFlag (flagsOf word) errorFlag <;> cases hasFlag (flagsOf word) validFlag <;> rfl

/-- What a host is told is what the bytes of the word say. -/
theorem Snapshot.toHost_describes (word : UInt32) :
    (ofWord word).toHost.Describes word := by
  have hstatus := status_ofWord word
  cases hvalid : hasFlag (flagsOf word) validFlag with
  | true =>
      rw [if_pos hvalid] at hstatus
      refine ⟨rfl, rfl, fun _ => ?_, fun hinvalid => ?_, ?_⟩
      · rw [toHost, hstatus]
        exact ⟨rfl, rfl, StateCode.toByte_ofByte _, rfl⟩
      · exact absurd (hvalid.symm.trans hinvalid) Bool.noConfusion
      · have hshown : (ofWord word).toHost.valid = true := hvalid
        rw [if_pos hshown, toHost, hstatus]
        cases hasFlag (flagsOf word) errorFlag <;> rfl
  | false =>
      rw [if_neg (Bool.not_eq_true _ ▸ hvalid)] at hstatus
      refine ⟨rfl, rfl, fun hshown => ?_, fun _ => ?_, ?_⟩
      · exact absurd (hvalid.symm.trans hshown) Bool.noConfusion
      · rw [toHost, hstatus]
        exact ⟨rfl, rfl, rfl, rfl⟩
      · have hshown : ¬(ofWord word).toHost.valid = true := Bool.not_eq_true _ ▸ hvalid
        rw [if_neg hshown, toHost, hstatus]
        cases hasFlag (flagsOf word) errorFlag <;> rfl

end

/-! ## What a call has to do -/

/-- What a call has to do, by the answers before it. Those that choose nothing
    have a target, which is the mailbox that was attached last, or the own
    one. -/
def HostCall.Complies (entries : List (HostEntry β)) (before after : HostSide β)
    (answer : HostAnswer) : HostCall β → Prop
  | .init table interval =>
    ∃ granted, answer = .granted granted ∧
      (granted = true ↔ table.isSome = true ∧ (interval = 0 ∨ 200 < interval) ∧
        ∀ entry ∈ entries, entry.isStarted = false ∧ entry.attached? = none) ∧
      (granted = false → after = before)
  | .attach address =>
    ∃ granted, answer = .granted granted ∧
      (granted = true ↔ address ≠ 0 ∧ ∀ entry ∈ entries, entry.isStarted = false) ∧
      (granted = false → after = before)
  | .poll =>
    answer = .nothing ∧ after.firmware.memory = before.firmware.memory ∧
      ((∀ entry ∈ entries, entry.isStarted = false) → after = before)
  | .enqueue code =>
    let target := HostEntry.lastAttached entries
    answer = .nothing ∧ before.AgreesBeside target after ∧
      (after.firmware.read target).pendingAction = ⟨code⟩ ∧
      after.firmware.read target =
        { before.firmware.read target with action := code.toUInt32 }
  | .currentStatus =>
    ∃ status, answer = .status status ∧
      status.Describes (before.firmware.read (HostEntry.lastAttached entries)).status ∧
      after = before
  | .isConnected =>
    let word := (before.firmware.read (HostEntry.lastAttached entries)).status
    answer = .connected (StatusWord.hasFlag (StatusWord.flagsOf word) StatusWord.connectedFlag) ∧
      after = before
  | .takeDriveRequest =>
    let target := HostEntry.lastAttached entries
    answer = .request (before.firmware.read target).driveRequest.toUInt16 ∧
      before.AgreesBeside target after ∧
      after.firmware.read target = { before.firmware.read target with driveRequest := 0 }

/-! ## The two calls that choose -/

namespace Selection

variable {ρ : Type} {selection : Selection β ρ}

/-- With both words empty, the bridge gets the bus. -/
theorem start_of_free (hbridge : selection.bridge = none) (hregion : selection.region = none)
    (bridge : β) :
    selection.start (some bridge) = ({ selection with bridge := some bridge }, true) := by
  rcases selection with ⟨_, _⟩
  cases hbridge
  cases hregion
  rfl

/-- A mailbox gets the host even if another one has it, as long as no bridge
    runs. -/
theorem attach_of_free (hbridge : selection.bridge = none) (region : ρ) :
    selection.attach (some region) = ({ selection with region := some region }, true) := by
  rcases selection with ⟨_, _⟩
  cases hbridge
  rfl

/-- A bridge that runs is never pushed aside. -/
theorem attach_of_taken (hbridge : selection.bridge ≠ none) (region : Option ρ) :
    selection.attach region = (selection, false) := by
  rcases selection with ⟨_ | _, _⟩
  · exact absurd rfl hbridge
  · cases region <;> rfl

end Selection

namespace Firmware

/-- Intervals that work: zero, or one that leaves time for an answer. -/
theorem validate_timingFor_iff (interval : Millis) :
    (timingFor interval).validate = .ok () ↔ interval = 0 ∨ 200 < interval := by
  by_cases hzero : interval = 0
  · rw [hzero]
    exact iff_of_true rfl (.inl rfl)
  -- Only the interval differs from the usual timing, whose other fields are good.
  · have htiming : timingFor interval = ⟨interval, 200, 3, 2, 10⟩ := if_neg hzero
    rw [htiming, Timing.validate, if_neg hzero]
    by_cases hshort : interval ≤ 200
    · rw [if_pos hshort]
      refine iff_of_false (by simp only [reduceCtorEq, not_false_eq_true]) ?_
      rw [not_or]
      exact ⟨hzero, UInt32.not_lt.mpr hshort⟩
    · rw [if_neg hshort]
      exact iff_of_true rfl (.inr (UInt32.not_le.mp hshort))

/-- All that a call for the bridge can do, as long as the room for the bridge
    has been used just if the bridge runs. -/
theorem init_cases {firmware : Firmware β}
    (hroom : firmware.selection.bridge.isSome = firmware.bridge.isSome)
    (table : Option (HostTable β)) (interval : Millis) (state : β) :
    ((table.isSome = true ∧ (interval = 0 ∨ 200 < interval) ∧ firmware.selection.region = none ∧
        firmware.selection.bridge = none) ∧
      ∃ own bridge state', firmware.init table interval state =
        ({ firmware with
            own, bridge := some bridge
            selection := { firmware.selection with bridge := some () } }, state', true)) ∨
    (¬(table.isSome = true ∧ (interval = 0 ∨ 200 < interval) ∧ firmware.selection.region = none ∧
        firmware.selection.bridge = none) ∧
      firmware.init table interval state = (firmware, state, false)) := by
  cases table with
  | none => exact .inr ⟨fun h => absurd h.1 Bool.false_ne_true, rfl⟩
  | some table =>
      cases hvalid : (timingFor interval).validate with
      | error error =>
          refine .inr ⟨fun h => ?_, by simp only [init, hvalid]⟩
          rw [← validate_timingFor_iff, hvalid] at h
          exact absurd h.2.1 (by simp only [reduceCtorEq, not_false_eq_true])
      | ok done =>
          -- The room is looked at, and the word is written. They go together.
          by_cases htaken : (firmware.selection.region.isSome || firmware.bridge.isSome) = true
          · refine .inr ⟨fun h => ?_, by simp only [init, hvalid, if_pos htaken]⟩
            rw [← hroom, h.2.2.1, h.2.2.2] at htaken
            exact absurd htaken Bool.false_ne_true
          · rw [Bool.or_eq_true, not_or] at htaken
            have hregion : firmware.selection.region = none :=
              Option.not_isSome_iff_eq_none.mp htaken.1
            have hbridge : firmware.selection.bridge = none := by
              rw [← Option.not_isSome_iff_eq_none, hroom]
              exact htaken.2
            have hfree : ¬(firmware.selection.region.isSome || firmware.bridge.isSome) = true := by
              rw [Bool.or_eq_true, not_or]
              exact htaken
            refine .inl ⟨⟨rfl, (validate_timingFor_iff interval).mp hvalid, hregion, hbridge⟩, ?_⟩
            simp only [init, hvalid, if_neg hfree, Selection.start_of_free hbridge hregion]
            exact ⟨_, _, _, rfl⟩

/-- All that a call for a mailbox can do. -/
theorem attach_cases (firmware : Firmware β) (address : MemoryAddress) :
    ((address ≠ 0 ∧ firmware.selection.bridge = none) ∧
      firmware.attach address =
        ({ firmware with selection := { firmware.selection with region := some address } }, true)) ∨
    (¬(address ≠ 0 ∧ firmware.selection.bridge = none) ∧
      firmware.attach address = (firmware, false)) := by
  by_cases hbridge : firmware.selection.bridge = none
  -- Address zero never gets as far as the words.
  · by_cases hzero : address = 0
    · refine .inr ⟨fun h => h.1 hzero, ?_⟩
      rw [attach, if_pos hzero]
      rfl
    · refine .inl ⟨⟨hzero, hbridge⟩, ?_⟩
      rw [attach, if_neg hzero, Selection.attach_of_free hbridge]
  · refine .inr ⟨fun h => hbridge h.2, ?_⟩
    rw [attach, Selection.attach_of_taken hbridge]

end Firmware

/-! ## What the answers say -/

namespace HostEntry

theorem lastAttached_concat (entries : List (HostEntry β)) (entry : HostEntry β) :
    lastAttached (entries ++ [entry]) = entry.attached?.or (lastAttached entries) := by
  rw [lastAttached, List.filterMap_append]
  -- The new entry stands last if it attaches anything, and is passed over if not.
  cases hentry : entry.attached? with
  | none =>
      rw [List.filterMap_cons_none hentry, List.filterMap_nil, List.append_nil]
      rfl
  | some address =>
      rw [List.filterMap_cons_some hentry, List.filterMap_nil, List.getLast?_concat]
      rfl

theorem lastAttached_eq_none_iff (entries : List (HostEntry β)) :
    lastAttached entries = none ↔ ∀ entry ∈ entries, entry.attached? = none := by
  rw [lastAttached, List.getLast?_eq_none_iff, List.filterMap_eq_nil_iff]

end HostEntry

namespace Firmware

variable (firmware : Firmware β) (state : β)

/-- Without a bridge there is nothing to service. -/
theorem poll_of_idle (h : firmware.selection.bridge = none) :
    firmware.poll state = (firmware, state) := by
  rw [poll, h]

/-- Servicing the bus leaves alone what the calls have chosen. -/
theorem poll_keeps :
    (firmware.poll state).1.selection = firmware.selection ∧
      (firmware.poll state).1.bridge.isSome = firmware.bridge.isSome ∧
      (firmware.poll state).1.memory = firmware.memory := by
  unfold poll
  split
  · next bridge _ hbridge =>
      rw [hbridge]
      exact ⟨rfl, rfl, rfl⟩
  · exact ⟨rfl, rfl, rfl⟩

end Firmware

namespace HostRun

open HostEntry (lastAttached lastAttached_concat lastAttached_eq_none_iff)

/-- The firmware keeps what the answers have said. -/
structure Kept (run : HostRun β) : Prop where
  bridge_eq : run.side.firmware.selection.bridge.isSome = run.entries.any HostEntry.isStarted
  room_eq : run.side.firmware.selection.bridge.isSome = run.side.firmware.bridge.isSome
  region_eq : run.side.firmware.selection.region = lastAttached run.entries

theorem kept_boot (memory : MemoryAddress → Mailbox) (state : β) : (boot memory state).Kept :=
  ⟨rfl, rfl, rfl⟩

variable {run : HostRun β}

/-- Answers that grant nothing are kept by leaving alone what was chosen. -/
theorem kept_of_same (h : run.Kept) {side : HostSide β} {entry : HostEntry β}
    (hstarted : entry.isStarted = false) (hattached : entry.attached? = none)
    (hselection : side.firmware.selection = run.side.firmware.selection)
    (hbridge : side.firmware.bridge.isSome = run.side.firmware.bridge.isSome) :
    Kept ⟨side, run.entries ++ [entry]⟩ := by
  refine ⟨?_, ?_, ?_⟩
  · simp only [hselection, List.any_append, List.any_cons, List.any_nil, hstarted, Bool.or_false]
    exact h.bridge_eq
  · simp only [hselection, hbridge]
    exact h.room_eq
  · simp only [hselection, lastAttached_concat, hattached, Option.none_or]
    exact h.region_eq

theorem kept_call (h : run.Kept) (call : HostCall β) : (run.turn (.call call)).Kept := by
  rw [turn]
  cases call with
  | init table interval =>
      rcases Firmware.init_cases h.room_eq table interval run.side.state with
        ⟨_, own, bridge, state, hinit⟩ | ⟨_, hinit⟩
      -- A granted call fills its word and the room, and is the newest answer.
      · refine ⟨?_, ?_, ?_⟩
        · simp only [HostSide.call, hinit, List.any_append, List.any_cons, HostEntry.isStarted,
            Option.isSome_some, Bool.true_or, Bool.or_true]
        · simp only [HostSide.call, hinit, Option.isSome_some]
        · simp only [HostSide.call, hinit, lastAttached_concat, HostEntry.attached?, Option.none_or]
          exact h.region_eq
      · simp only [HostSide.call, hinit]
        exact kept_of_same h rfl rfl rfl rfl
  | attach address =>
      rcases run.side.firmware.attach_cases address with ⟨_, hattach⟩ | ⟨_, hattach⟩
      -- The new address stands in for those attached before it.
      · refine ⟨?_, ?_, ?_⟩
        · simp only [HostSide.call, hattach, List.any_append, List.any_cons, List.any_nil,
            HostEntry.isStarted, Bool.or_false]
          exact h.bridge_eq
        · simp only [HostSide.call, hattach]
          exact h.room_eq
        · simp only [HostSide.call, hattach, lastAttached_concat, HostEntry.attached?,
            Option.some_or]
      · simp only [HostSide.call, hattach]
        exact kept_of_same h rfl rfl rfl rfl
  | poll =>
      rcases run.side.firmware.poll_keeps run.side.state with ⟨hselection, hbridge, _⟩
      exact kept_of_same h rfl rfl hselection hbridge
  | enqueue code =>
      simp only [HostSide.call, Firmware.enqueue, Firmware.setMailbox_eq_write]
      exact kept_of_same h rfl rfl (Firmware.selection_write _ _ _)
        (congrArg Option.isSome (Firmware.bridge_write _ _ _))
  | currentStatus => exact kept_of_same h rfl rfl rfl rfl
  | isConnected => exact kept_of_same h rfl rfl rfl rfl
  | takeDriveRequest =>
      simp only [HostSide.call, Firmware.takeDriveRequest, Firmware.setMailbox_eq_write]
      exact kept_of_same h rfl rfl (Firmware.selection_write _ _ _)
        (congrArg Option.isSome (Firmware.bridge_write _ _ _))

/-- The world has no part in the three places, so only calls could break the
    invariant. -/
theorem kept_turn (h : run.Kept) (turn : HostTurn β) : (run.turn turn).Kept := by
  cases turn with
  | call call => exact kept_call h call
  | world memory state => exact ⟨h.bridge_eq, h.room_eq, h.region_eq⟩

/-- The invariant holds after any turns, by induction over them. -/
theorem kept_follow (h : run.Kept) (turns : List (HostTurn β)) : (run.follow turns).Kept := by
  induction turns generalizing run with
  | nil => exact h
  | cons turn turns ih => exact ih (kept_turn h turn)

/-! ## Calls do what they have to do -/

/-- The host knows whether the bridge runs from the answers that it got. -/
theorem bridge_eq_none_iff (h : run.Kept) :
    run.side.firmware.selection.bridge = none ↔
      ∀ entry ∈ run.entries, entry.isStarted = false := by
  rw [← Option.not_isSome_iff_eq_none, h.bridge_eq, Bool.not_eq_true, List.any_eq_false]
  simp only [Bool.not_eq_true]

/-- The host knows from its answers whether anything has been chosen. -/
theorem free_iff (h : run.Kept) :
    run.side.firmware.selection.region = none ∧ run.side.firmware.selection.bridge = none ↔
      ∀ entry ∈ run.entries, entry.isStarted = false ∧ entry.attached? = none := by
  rw [bridge_eq_none_iff h, h.region_eq, lastAttached_eq_none_iff]
  constructor
  · rintro ⟨hregion, hbridge⟩ entry hentry
    exact ⟨hbridge entry hentry, hregion entry hentry⟩
  · intro hfree
    exact ⟨fun entry hentry => (hfree entry hentry).2, fun entry hentry => (hfree entry hentry).1⟩

/-- The answers stand for the words by the invariant, and each call is read off
    its cases. -/
theorem complies_of_kept (h : run.Kept) (call : HostCall β) :
    call.Complies run.entries run.side (run.side.call call).1 (run.side.call call).2 := by
  cases call with
  | init table interval =>
      rcases Firmware.init_cases h.room_eq table interval run.side.state with
        ⟨hvalid, own, bridge, state, hinit⟩ | ⟨hinvalid, hinit⟩
      · rw [free_iff h] at hvalid
        simp only [HostCall.Complies, HostSide.call, hinit]
        exact ⟨true, rfl, iff_of_true rfl hvalid, fun hrefused => absurd hrefused Bool.noConfusion⟩
      · rw [free_iff h] at hinvalid
        simp only [HostCall.Complies, HostSide.call, hinit]
        exact ⟨false, rfl, iff_of_false Bool.false_ne_true hinvalid, fun _ => trivial⟩
  | attach address =>
      rcases run.side.firmware.attach_cases address with ⟨hvalid, hattach⟩ | ⟨hinvalid, hattach⟩
      · rw [bridge_eq_none_iff h] at hvalid
        simp only [HostCall.Complies, HostSide.call, hattach]
        exact ⟨true, rfl, iff_of_true rfl hvalid, fun hrefused => absurd hrefused Bool.noConfusion⟩
      · rw [bridge_eq_none_iff h] at hinvalid
        simp only [HostCall.Complies, HostSide.call, hattach]
        exact ⟨false, rfl, iff_of_false Bool.false_ne_true hinvalid, fun _ => trivial⟩
  | poll =>
      refine ⟨rfl, (run.side.firmware.poll_keeps run.side.state).2.2, fun hnone => ?_⟩
      rw [HostSide.call, Firmware.poll_of_idle _ _ ((bridge_eq_none_iff h).mpr hnone)]
  -- The others go to the mailbox that the word names, which is the one attached last.
  | enqueue code =>
      simp only [HostCall.Complies, HostSide.call, Firmware.enqueue, Firmware.mailbox_eq_read,
        Firmware.setMailbox_eq_write, h.region_eq, Firmware.read_write]
      exact ⟨trivial, HostSide.agreesBeside_write _ _ _, Mailbox.pendingAction_enqueue _ code,
        Mailbox.enqueue_eq _ code⟩
  | currentStatus =>
      simp only [HostCall.Complies, HostSide.call, Firmware.currentStatus,
        Firmware.mailbox_eq_read, h.region_eq]
      exact ⟨_, rfl, Snapshot.toHost_describes _, trivial⟩
  | isConnected =>
      simp only [HostCall.Complies, HostSide.call, Firmware.isConnected,
        Firmware.mailbox_eq_read, h.region_eq]
      exact ⟨rfl, trivial⟩
  | takeDriveRequest =>
      simp only [HostCall.Complies, HostSide.call, Firmware.takeDriveRequest,
        Firmware.mailbox_eq_read, Firmware.setMailbox_eq_write, h.region_eq, Firmware.read_write,
        Mailbox.takeDriveRequest_getD]
      exact ⟨trivial, HostSide.agreesBeside_write _ _ _, rfl⟩

/-- A call that is refused leaves everything as it was. -/
theorem side_of_refused (h : run.Kept) {call : HostCall β}
    (hrefused : (run.side.call call).2 = .granted false) : (run.side.call call).1 = run.side := by
  have hcomplies := complies_of_kept h call
  cases call with
  | init table interval =>
      rcases hcomplies with ⟨granted, hanswer, _, hsame⟩
      exact hsame (HostAnswer.granted.inj (hanswer.symm.trans hrefused))
  | attach address =>
      rcases hcomplies with ⟨granted, hanswer, _, hsame⟩
      exact hsame (HostAnswer.granted.inj (hanswer.symm.trans hrefused))
  | poll => exact HostAnswer.noConfusion hrefused
  | enqueue code => exact HostAnswer.noConfusion hrefused
  | currentStatus => exact HostAnswer.noConfusion hrefused
  | isConnected => exact HostAnswer.noConfusion hrefused
  | takeDriveRequest => exact HostAnswer.noConfusion hrefused

/-- Later answers only depend on the firmware and the host. -/
theorem entries_follow {run other : HostRun β} (h : other.side = run.side)
    (turns : List (HostTurn β)) :
    ∃ later, (run.follow turns).entries = run.entries ++ later ∧
      (other.follow turns).entries = other.entries ++ later := by
  -- Each turn leaves both runs with the same side again, and adds the same entry.
  induction turns generalizing run other with
  | nil => exact ⟨[], (List.append_nil _).symm, (List.append_nil _).symm⟩
  | cons turn turns ih =>
      cases turn with
      | call call =>
          have hside : (other.turn (.call call)).side = (run.turn (.call call)).side := by
            simp only [HostRun.turn, h]
          rcases ih hside with ⟨later, hrun, hother⟩
          refine ⟨⟨call, (run.side.call call).2⟩ :: later, ?_, ?_⟩
          · rw [follow, List.foldl_cons, ← follow, hrun, HostRun.turn, List.append_assoc]
            rfl
          · rw [follow, List.foldl_cons, ← follow, hother, HostRun.turn, List.append_assoc, h]
            rfl
      | world memory state =>
          have hside : (other.turn (.world memory state)).side
              = (run.turn (.world memory state)).side := by
            simp only [HostRun.turn, h]
          exact ih hside

/-- Calls do what they have to do. Whatever calls were made since the reset, and
    however memory and the host have changed in between, the next call is
    answered by the table, the interval or the address that it is given and by
    the answers to the calls before it. A call that is refused leaves everything
    as it was, and the calls behind it are answered as if it had not been made.
    Calls that choose nothing go to the mailbox that was attached last, or to
    the own one: a code is the pending one there afterwards, a drive request is
    given and taken away, and the status and the link are those of the status
    word. They leave every other word of that mailbox, and every other mailbox,
    as it was. -/
theorem complies_follow (memory : MemoryAddress → Mailbox) (state : β) (turns : List (HostTurn β))
    (call : HostCall β) :
    let run := (boot memory state).follow turns
    call.Complies run.entries run.side (run.side.call call).1 (run.side.call call).2 ∧
      ((run.side.call call).2 = .granted false → ∀ rest, ∃ later,
        (run.follow rest).entries = run.entries ++ later ∧
        ((run.turn (.call call)).follow rest).entries
          = run.entries ++ ⟨call, .granted false⟩ :: later) := by
  intro run
  have hkept : run.Kept := kept_follow (kept_boot memory state) turns
  refine ⟨complies_of_kept hkept call, fun hrefused rest => ?_⟩
  have hside : (run.turn (.call call)).side = run.side := side_of_refused hkept hrefused
  -- Without a change of the sides, the calls behind it are answered alike.
  rcases entries_follow hside rest with ⟨later, hwithout, hwith⟩
  refine ⟨later, hwithout, ?_⟩
  rw [hwith, turn, hrefused, List.append_assoc]
  rfl

end HostRun

end DoorBus

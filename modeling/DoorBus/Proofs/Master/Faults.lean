import DoorBus.Proofs.Master.Notes

/-!
# Faults of the Bus Master

The bus master is written as if everything could fail: a request might not fit
into its buffer, a frame might be of no known sort, a payload might be too
short. None of that happens. The layers below have made sure of it, and what is
left is what the line can do to a frame and what the drive can put into one.

So there is no error when a poll is begun. Every frame that gets through is
sorted. A status is rejected for its place, its quantity or its byte count, and
an answer for its byte count alone. This holds of any bus master, whatever it
has been through before.

## Main definitions

* `Master.noted`: The notes of a byte.

## Theorems

* `beginIfDue_isOk`: Beginning a poll does not fail.
* `call_gains`, `notes_callAll`: The fault in a note is its own.
* `rejects_response_iff`, `rejects_status_iff`: When a message is rejected.
* `faults_exact`: All of it.
-/

namespace DoorBus

/-! ## Rejections among the notes -/

/-- A change of the link carries no fault. A note about a fault must then be the
    remark on the frame. -/
theorem not_mem_change {change : LinkChange} {fault : BusFault} :
    .responseRejected fault ∉ change.notes := by
  intro h
  rcases eq_of_mem_change h with hevent | ⟨hevent, _⟩
  · exact Event.noConfusion hevent
  · exact Event.noConfusion hevent

/-- A rejection is noted at the end of a poll just if that is how it ends. -/
theorem rejected_mem_notes_iff {kind : PollKind} {change : LinkChange} {outcome : Outcome} :
    (∃ fault, .responseRejected fault ∈ outcome.notes kind change) ↔
      ∃ fault, outcome = .rejected fault := by
  constructor
  · rintro ⟨fault, h⟩
    cases outcome with
    | rejected fault => exact ⟨fault, rfl⟩
    -- An answer has other notes, none of which is about a fault.
    | answered response =>
        simp only [Outcome.notes, List.mem_append, List.mem_singleton, reduceCtorEq, or_false] at h
        rcases h with hchange | hnews
        · exact absurd hchange not_mem_change
        · rcases eq_of_mem_news hnews with ⟨_, hevent⟩ | ⟨_, hevent⟩
          · exact Event.noConfusion hevent
          · exact Event.noConfusion hevent
    | excepted code =>
        simp only [Outcome.notes, List.mem_cons, reduceCtorEq, false_or] at h
        exact absurd h not_mem_change
    | overdue =>
        simp only [Outcome.notes, List.mem_cons, reduceCtorEq, false_or] at h
        exact absurd h not_mem_change
    | unsent =>
        simp only [Outcome.notes, List.mem_cons, reduceCtorEq, false_or] at h
        exact absurd h not_mem_change
  · rintro ⟨fault, rfl⟩
    exact ⟨fault, List.mem_cons_self⟩

namespace Master

open Event (IsExact)
open EventQueue (Gains gains_refl gains_push gains_mono)

/-- The notes of a byte. -/
def noted (master : Master) (byte : UInt8) : List Event :=
  (master.hearByte byte .unbounded).2.events

/-- A byte that completes a frame notes what the handling of the frame notes,
    and nothing else. -/
theorem noted_of_returned {master : Master} {byte : UInt8} {frame : Frame}
    (h : (master.receiver.feed byte).2 = .ok (some frame)) :
    master.noted byte = ((master.fed byte).onFrame frame .unbounded).2.events := by
  rw [noted, hearByte_eq, h]

/-- An answer is rejected just if its byte count is not the one that was asked
    for. -/
theorem rejects_response_iff {master : Master} {byte : UInt8} {frame : Frame} {kind : PollKind}
    (hphase : master.phase = .awaiting kind)
    (hfeed : (master.receiver.feed byte).2 = .ok (some frame)) {count : UInt8} {data : List UInt8}
    (haddress : frame.address = Address.drive)
    (hfunction : frame.function = Function.readWriteBlock)
    (hpayload : frame.payload = count :: data) (hcount : data.length = count.toNat) :
    (∃ fault, .responseRejected fault ∈ master.noted byte) ↔
      count.toNat ≠ 2 * kind.readQuantity.toNat := by
  have hsorted := Incoming.ofFrame_of_laidOut
    (.response haddress hfunction hpayload hcount : frame.LaidOut (.response frame))
  -- The byte goes to the receiver, and the poll goes on to await its answer.
  have hphase' : (master.fed byte).phase = .awaiting kind := hphase
  rw [noted_of_returned hfeed]
  rcases Response.ofFrame_of_payload haddress hfunction hpayload hcount kind with
    ⟨hfits, response, hresponse⟩ | ⟨hfits, hresponse⟩
  · have hanswer : kind.answer? frame = some (.answered response) := by
      rw [PollKind.answer?, hsorted]
      simp only [hresponse]
    rw [onFrame_of_answer hphase' hanswer, EventQueue.pushAll_unbounded, rejected_mem_notes_iff]
    simp only [reduceCtorEq, exists_false, hfits, ne_eq, not_true_eq_false]
  · have hanswer : kind.answer? frame = some (.rejected .malformedResponse) := by
      rw [PollKind.answer?, hsorted]
      simp only [hresponse]
      rfl
    rw [onFrame_of_answer hphase' hanswer, EventQueue.pushAll_unbounded, rejected_mem_notes_iff]
    exact iff_of_true ⟨_, rfl⟩ hfits

/-- A status is rejected just if its place, its quantity or its byte count is
    not that of the block. -/
theorem rejects_status_iff {master : Master} {byte : UInt8} {frame : Frame}
    (hfeed : (master.receiver.feed byte).2 = .ok (some frame))
    {s₀ s₁ q₀ q₁ count : UInt8} {data : List UInt8}
    (haddress : frame.address = Address.broadcast)
    (hfunction : frame.function = Function.writeBlock)
    (hpayload : frame.payload = s₀ :: s₁ :: q₀ :: q₁ :: count :: data)
    (hcount : data.length = count.toNat) :
    (∃ fault, .statusRejected fault ∈ master.noted byte) ↔
      Word.join s₀ s₁ ≠ Block.status ∨ (Word.join q₀ q₁).toNat ≠ DoorStatus.registerCount ∨
        count.toNat ≠ 2 * DoorStatus.registerCount := by
  have hsorted := Incoming.ofFrame_of_laidOut
    (.broadcast haddress hfunction hpayload hcount : frame.LaidOut (.broadcast frame))
  -- No poll takes a broadcast for its answer, so that there are only remarks.
  have hnone : ∀ kind, (master.fed byte).phase = .awaiting kind → kind.answer? frame = none := by
    intro kind _
    rw [PollKind.answer?, hsorted]
  rw [noted_of_returned hfeed, onFrame_of_not_answer hnone, EventQueue.pushAll_unbounded,
    DriveRecord.remarks, hsorted]
  simp only []
  rcases DoorStatus.ofFrame_of_payload haddress hfunction hpayload hcount with
    ⟨⟨hplace, hquantity, hbytes⟩, status, hstatus⟩ | ⟨hfields, error, hstatus, _⟩
  -- A status that is read may be noted as news, but never as rejected.
  · simp only [hstatus]
    refine iff_of_false ?_ ?_
    · rintro ⟨fault, hmem⟩
      by_cases hnew : ((master.fed byte).record.hear status).2 = true
      · rw [if_pos hnew] at hmem
        exact Event.noConfusion (List.mem_singleton.mp hmem)
      · rw [if_neg hnew] at hmem
        exact absurd hmem List.not_mem_nil
    · rintro (hne | hne | hne)
      · exact hne hplace
      · exact hne hquantity
      · exact hne hbytes
  · simp only [hstatus]
    exact iff_of_true ⟨_, List.mem_singleton_self _⟩ hfields

/-! ## Calls -/

/-- No poll fails to be begun. A request always fits into a frame. -/
theorem beginIfDue_isOk {σ : Type} (master : Master) (now : Millis) (take : σ → σ × ActionCode)
    (source : σ) (queue : EventQueue) :
    ∃ request, (master.beginIfDue now take source queue).request = .ok request := by
  by_cases hdue : master.isDue now = true
  · rw [beginIfDue_of_due hdue]
    exact ⟨_, rfl⟩
  · rw [beginIfDue_of_not_due hdue]
    exact ⟨_, rfl⟩

/-- A call only adds notes that are exact. Those of bytes by the lemma on
    faults, the note of a request as it carries none. -/
theorem call_gains (master : Master) (call : Call) (queue : EventQueue) :
    Gains IsExact queue (master.call call queue).2 := by
  have hmono : ∀ event : Event, event.IsInbound → event.IsExact := fun event h => h.isExact
  cases call with
  | poll now action =>
      by_cases hdue : master.isDue now = true
      · rw [(poll_of_due hdue action).2]
        exact gains_push queue trivial
      · rw [(poll_of_not_due hdue action).2]
        exact gains_refl queue
  | sent now => exact gains_refl queue
  | unsent => exact gains_mono hmono (resolveFailure_gains _ queue)
  | hear now bytes => exact gains_mono hmono (hear_gains master now bytes queue)
  | check now => exact gains_mono hmono (checkTimeouts_gains master now queue)

end Master

/-- All notes of a run are exact, if those that there are to begin with are. -/
theorem Watch.notes_callAll {watch : Watch} (h : ∀ event ∈ watch.notes, event.IsExact)
    (calls : List Master.Call) : ∀ event ∈ (watch.callAll calls).notes, event.IsExact := by
  induction calls generalizing watch with
  | nil => exact h
  | cons call calls ih =>
      -- The call adds its own notes, those of a queue that held none.
      refine ih fun event hevent => ?_
      rcases List.mem_append.mp hevent with hbefore | hnow
      · exact h event hbefore
      · have hgains := watch.master.call_gains call .unbounded
        rcases EventQueue.mem_of_gains hgains hnow with hnone | hnew
        · exact absurd hnone List.not_mem_nil
        · exact hnew

/-- What can fail on the bus, for every bus master and whatever it is given.
    Beginning a poll cannot. A frame that a byte returns is a broadcast, an
    answer or an exception with a single code. The payload of a broadcast has
    all its fields, and its status is rejected just if these are not those of
    the status block. An answer has its byte count, and is rejected by the poll
    that awaits it just if that is not what the poll has asked for. And the
    fault in a note is always its own, after a single call and after any run. -/
theorem Master.faults_exact :
    (∀ (σ : Type) (master : Master) (now : Millis) (take : σ → σ × ActionCode) (source : σ)
      (queue : EventQueue),
      ∃ request, (master.beginIfDue now take source queue).request = .ok request) ∧
    (∀ (master : Master) (byte : UInt8) (frame : Frame),
      (master.receiver.feed byte).2 = .ok (some frame) →
      (∃ s₀ s₁ q₀ q₁ count data, Incoming.ofFrame frame = .ok (.broadcast frame) ∧
        frame.payload = s₀ :: s₁ :: q₀ :: q₁ :: count :: data ∧ data.length = count.toNat ∧
        ((∃ fault, .statusRejected fault ∈ master.noted byte) ↔
          Word.join s₀ s₁ ≠ 0x9D31 ∨ (Word.join q₀ q₁).toNat ≠ 9 ∨ count.toNat ≠ 18)) ∨
      (∃ count data, Incoming.ofFrame frame = .ok (.response frame) ∧
        frame.payload = count :: data ∧ data.length = count.toNat ∧
        ∀ kind, master.phase = .awaiting kind →
          ((∃ fault, .responseRejected fault ∈ master.noted byte) ↔
            count.toNat ≠ 2 * kind.readQuantity.toNat)) ∨
      (∃ code, Incoming.ofFrame frame = .ok (.exception code) ∧ frame.payload = [code])) ∧
    (∀ (master : Master) (call : Call) (queue : EventQueue),
      ∀ event ∈ (master.call call queue).2.events, event ∈ queue.events ∨ event.IsExact) ∧
    (∀ (timing : Timing) (calls : List Call),
      ∀ event ∈ ((Watch.on (.new timing)).callAll calls).notes, event.IsExact) := by
  refine ⟨fun σ master => beginIfDue_isOk master, fun master byte frame hfeed => ?_,
    fun master call queue event => EventQueue.mem_of_gains (master.call_gains call queue),
    fun timing calls => Watch.notes_callAll (List.forall_mem_nil _) calls⟩
  -- A frame that was returned has one of three layouts, and is sorted by it.
  rcases Receiver.laidOut_of_feed hfeed with ⟨incoming, hlaid⟩
  have hsorted := Incoming.ofFrame_of_laidOut hlaid
  cases hlaid with
  | broadcast haddress hfunction hpayload hcount =>
      exact .inl ⟨_, _, _, _, _, _, hsorted, hpayload, hcount,
        rejects_status_iff hfeed haddress hfunction hpayload hcount⟩
  | response haddress hfunction hpayload hcount =>
      exact .inr (.inl ⟨_, _, hsorted, hpayload, hcount, fun kind hphase =>
        rejects_response_iff hphase hfeed haddress hfunction hpayload hcount⟩)
  | exception haddress hfunction hpayload =>
      exact .inr (.inr ⟨_, hsorted, hpayload⟩)

/-- An answer without registers, to a poll that has asked for some. -/
theorem Master.faults_exact_empty :
    let frame : Frame := ⟨Address.drive, Function.readWriteBlock, [0], by decide⟩
    let master : Master := { Master.new .standard with
      phase := .awaiting .commandPoll, receiver := ⟨[0x02, 0x17, 0x00, 0xDF]⟩ }
    (master.receiver.feed 0xF0).2 = .ok (some frame) ∧
      ∃ fault, .responseRejected fault ∈ master.noted 0xF0 := by
  intro frame master
  have hfeed : (master.receiver.feed 0xF0).2 = .ok (some frame) := by
    rw [Receiver.feed_returns_iff_completed]
    decide +kernel
  have hsorted : Incoming.ofFrame frame = .ok (.response frame) := by rfl
  refine ⟨hfeed, ?_⟩
  rcases faults_exact.2.1 master 0xF0 frame hfeed with
    ⟨_, _, _, _, _, _, hbroadcast, _⟩ | ⟨count, data, _, hpayload, _, hrejected⟩ |
    ⟨code, hexception, _⟩
  · rw [hsorted] at hbroadcast
    exact absurd hbroadcast (by simp only [Except.ok.injEq, reduceCtorEq, not_false_eq_true])
  · rw [hrejected .commandPoll rfl, ← (List.cons.inj hpayload).1]
    decide
  · rw [hsorted] at hexception
    exact absurd hexception (by simp only [Except.ok.injEq, reduceCtorEq, not_false_eq_true])

end DoorBus

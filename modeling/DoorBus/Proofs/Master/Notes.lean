import DoorBus.Proofs.Master.Watch
import DoorBus.Proofs.Message.Layout

/-!
# What the Notes Can Say

Some notes carry a fault. The type of faults is one for all of them, and it is
computed from two kinds of error that can be many things. But what is noted is
always the fault that belongs to the note. A frame is only dropped for its check
or because it was not finished, since the frames that do get through are laid
out. For the same reason a status or an answer that is rejected has failed in
its reader, and each reader has one fault.

Besides, what comes in tells of answers, timeouts and broken frames, but never
of a request. The two facts are kept together, as the notes that can come of
listening, and are followed from the frame up to the operations of the master.

The notes are compared by what a queue gains. That says the same of a full queue
and of one that never fills.

## Main definitions

* `Event.begun?`: The request that a note tells of.
* `Event.IsExact`: The fault in a note is its own.
* `Event.IsInbound`: A note that can come of listening.
* `EventQueue.Gains`: Only notes of some sort have been added.

## Theorems

* `fault_of_answer`: An answer is rejected for one reason.
* `isInbound_of_mem_notes`, `isInbound_of_mem_remarks`: Notes of a frame.
* `mem_of_gains`: What a queue holds was there before, or has been gained.
* `hearByte_gains`: A byte leads to notes of listening only.
* `hear_gains`, `checkTimeouts_gains`: So do the two operations that take
  something in.
* `resolveFailure_gains`: So does a failure.
-/

namespace DoorBus

namespace Event

/-- The request that a note tells of, if one was begun. -/
def begun? : Event → Option Request
  | sent kind action => some ⟨kind, action⟩
  | _ => none

/-- The fault in a note is the one that belongs to it. -/
def IsExact : Event → Prop
  | frameDropped fault => fault = .checksumMismatch ∨ fault = .truncated
  | statusRejected fault => fault = .malformedStatus
  | responseRejected fault => fault = .malformedResponse
  | _ => True

/-- A note that can come of listening. -/
structure IsInbound (event : Event) : Prop where
  begun_eq : event.begun? = none
  isExact : event.IsExact

end Event

/-! ## Notes -/

/-- A change of the link is noted as what it is, and no change not at all. -/
theorem eq_of_mem_change {change : LinkChange} {event : Event} (h : event ∈ change.notes) :
    event = .connected ∨ event = .disconnected ∧ change = .disconnected := by
  cases change with
  | unchanged => exact absurd h List.not_mem_nil
  | connected => exact .inl (List.mem_singleton.mp h)
  | disconnected => exact .inr ⟨List.mem_singleton.mp h, rfl⟩

/-- An answer tells of an identification or of a request of the drive. -/
theorem eq_of_mem_news {response : Response} {event : Event} (h : event ∈ response.news) :
    (∃ words, event = .identified words) ∨ ∃ code, event = .driveRequest code := by
  unfold Response.news at h
  cases hkind : response.kind with
  | busScan =>
      rw [hkind] at h
      exact .inl ⟨_, List.mem_singleton.mp h⟩
  | commandPoll =>
      rw [hkind] at h
      simp only [Option.mem_toList, Option.map_eq_some_iff] at h
      rcases h with ⟨code, _, hevent⟩
      exact .inr ⟨code, hevent.symm⟩

/-- No change of the link is the note of a request sent. -/
theorem isInbound_of_mem_change {change : LinkChange} {event : Event} (h : event ∈ change.notes) :
    event.IsInbound := by
  rcases eq_of_mem_change h with rfl | ⟨rfl, _⟩
  · exact ⟨rfl, trivial⟩
  · exact ⟨rfl, trivial⟩

theorem isInbound_of_mem_news {response : Response} {event : Event} (h : event ∈ response.news) :
    event.IsInbound := by
  rcases eq_of_mem_news h with ⟨_, rfl⟩ | ⟨_, rfl⟩
  · exact ⟨rfl, trivial⟩
  · exact ⟨rfl, trivial⟩

/-- The end of a poll tells of no request, and of one fault at most. -/
theorem isInbound_of_mem_notes {kind : PollKind} {change : LinkChange} {outcome : Outcome}
    (hfault : ∀ fault, outcome = .rejected fault → fault = .malformedResponse)
    {event : Event} (h : event ∈ outcome.notes kind change) : event.IsInbound := by
  cases outcome with
  | answered response =>
      simp only [Outcome.notes, List.mem_append, List.mem_singleton] at h
      rcases h with (hchange | hnews) | rfl
      · exact isInbound_of_mem_change hchange
      · exact isInbound_of_mem_news hnews
      · exact ⟨rfl, trivial⟩
  | excepted code =>
      rcases List.mem_cons.mp h with rfl | hchange
      · exact ⟨rfl, trivial⟩
      · exact isInbound_of_mem_change hchange
  | rejected fault =>
      simp only [Outcome.notes, List.mem_cons] at h
      -- Of all ends this is the only one that carries a fault.
      rcases h with rfl | rfl | hchange
      · exact ⟨rfl, hfault fault rfl⟩
      · exact ⟨rfl, trivial⟩
      · exact isInbound_of_mem_change hchange
  | overdue =>
      rcases List.mem_cons.mp h with rfl | hchange
      · exact ⟨rfl, trivial⟩
      · exact isInbound_of_mem_change hchange
  | unsent =>
      rcases List.mem_cons.mp h with rfl | hchange
      · exact ⟨rfl, trivial⟩
      · exact isInbound_of_mem_change hchange

/-- A frame that is laid out is rejected as an answer for one reason. -/
theorem fault_of_answer {kind : PollKind} {frame : Frame} {incoming : Incoming} {fault : BusFault}
    (hlaid : frame.LaidOut incoming) (h : kind.answer? frame = some (.rejected fault)) :
    fault = .malformedResponse := by
  rw [PollKind.answer?, Incoming.ofFrame_of_laidOut hlaid] at h
  -- Neither a broadcast nor an exception is ever rejected as an answer.
  cases hlaid with
  | broadcast haddress hfunction hpayload hcount => simp only [reduceCtorEq] at h
  | exception haddress hfunction hpayload => simp only [Option.some.injEq, reduceCtorEq] at h
  | response haddress hfunction hpayload hcount =>
      simp only [] at h
      rcases Response.ofFrame_of_payload haddress hfunction hpayload hcount kind with
        ⟨_, response, hresponse⟩ | ⟨_, hresponse⟩
      · simp only [hresponse, Option.some.injEq, reduceCtorEq] at h
      · simp only [hresponse, Option.some.injEq, Outcome.rejected.injEq] at h
        exact h.symm

/-- What is remarked of a frame that is laid out. Only a status can be at
    fault. -/
theorem isInbound_of_mem_remarks {record : DriveRecord} {frame : Frame} {incoming : Incoming}
    (hlaid : frame.LaidOut incoming) {event : Event} (h : event ∈ record.remarks frame) :
    event.IsInbound := by
  rw [DriveRecord.remarks, Incoming.ofFrame_of_laidOut hlaid] at h
  cases hlaid with
  | response haddress hfunction hpayload hcount =>
      rw [List.mem_singleton.mp h]
      exact ⟨rfl, trivial⟩
  | exception haddress hfunction hpayload =>
      rw [List.mem_singleton.mp h]
      exact ⟨rfl, trivial⟩
  | broadcast haddress hfunction hpayload hcount =>
      simp only [] at h
      rcases DoorStatus.ofFrame_of_payload haddress hfunction hpayload hcount with
        ⟨_, status, hstatus⟩ | ⟨_, error, hstatus, herror⟩
      · simp only [hstatus] at h
        by_cases hnew : (record.hear status).2 = true
        · rw [if_pos hnew] at h
          rw [List.mem_singleton.mp h]
          exact ⟨rfl, trivial⟩
        · rw [if_neg hnew] at h
          exact absurd h List.not_mem_nil
      · simp only [hstatus, List.mem_singleton] at h
        rw [h]
        -- Both errors amount to the same fault.
        rcases herror with rfl | rfl
        · exact ⟨rfl, rfl⟩
        · exact ⟨rfl, rfl⟩

/-! ## Queues -/

namespace EventQueue

/-- Only notes of some sort have been added. -/
def Gains (sort : Event → Prop) (before after : EventQueue) : Prop :=
  ∃ notes, after = before.pushAll notes ∧ ∀ event ∈ notes, sort event

variable {sort : Event → Prop} {before middle after : EventQueue}

theorem gains_refl (queue : EventQueue) : Gains sort queue queue :=
  ⟨[], rfl, List.forall_mem_nil _⟩

/-- What two operations add, they add one after the other. -/
theorem gains_trans (h : Gains sort before middle) (h' : Gains sort middle after) :
    Gains sort before after := by
  rcases h with ⟨notes, rfl, hnotes⟩
  rcases h' with ⟨more, rfl, hmore⟩
  refine ⟨notes ++ more, (pushAll_append before notes more).symm, ?_⟩
  intro event hevent
  rcases List.mem_append.mp hevent with hfirst | hlater
  · exact hnotes event hfirst
  · exact hmore event hlater

theorem gains_push (queue : EventQueue) {event : Event} (h : sort event) :
    Gains sort queue (queue.push event) :=
  ⟨[event], rfl, List.forall_mem_singleton.mpr h⟩

theorem gains_pushAll (queue : EventQueue) {notes : List Event} (h : ∀ event ∈ notes, sort event) :
    Gains sort queue (queue.pushAll notes) :=
  ⟨notes, rfl, h⟩

/-- A wider sort asks less. The notes of bytes are compared with those of a
    whole call by it. -/
theorem gains_mono {sort' : Event → Prop} (hsort : ∀ event, sort event → sort' event)
    (h : Gains sort before after) : Gains sort' before after := by
  rcases h with ⟨notes, hafter, hnotes⟩
  exact ⟨notes, hafter, fun event hevent => hsort event (hnotes event hevent)⟩

/-- A queue holds nothing but what it held and what it has gained. -/
theorem mem_of_gains (h : Gains sort before after) {event : Event} (hevent : event ∈ after.events) :
    event ∈ before.events ∨ sort event := by
  rcases h with ⟨notes, rfl, hnotes⟩
  -- With every note the queue before is another one, full or not.
  induction notes generalizing before with
  | nil => exact .inl hevent
  | cons note notes ih =>
      have hrest : ∀ other ∈ notes, sort other := fun other hother =>
        hnotes other (List.mem_cons_of_mem note hother)
      rcases ih hrest hevent with hheld | hsort
      · rw [push] at hheld
        by_cases hroom : before.hasRoom = true
        · rw [if_pos hroom] at hheld
          rcases List.mem_append.mp hheld with hbefore | hnote
          · exact .inl hbefore
          · rw [List.mem_singleton.mp hnote]
            exact .inr (hnotes note List.mem_cons_self)
        · rw [if_neg hroom] at hheld
          exact .inl hheld
      · exact .inr hsort

/-- What a queue without limit gains stands behind what it held. -/
theorem events_of_gains {events : List Event} (h : Gains sort ⟨none, events⟩ after) :
    ∃ more, after = ⟨none, events ++ more⟩ ∧ ∀ event ∈ more, sort event := by
  rcases h with ⟨notes, rfl, hnotes⟩
  exact ⟨notes, pushAll_unlimited events notes, hnotes⟩

end EventQueue

/-! ## What comes in -/

namespace Master

open Event (IsInbound)
open EventQueue (Gains gains_refl gains_trans gains_push gains_pushAll)

theorem onFrame_gains (master : Master) {frame : Frame} {incoming : Incoming}
    (hlaid : frame.LaidOut incoming) (queue : EventQueue) :
    Gains IsInbound queue (master.onFrame frame queue).2 := by
  rcases master.onFrame_cases frame with ⟨kind, outcome, _, hanswer, hdoes⟩ | ⟨_, hdoes⟩
  -- The frame is the answer to the poll under way, and it has been laid out.
  · rw [hdoes]
    refine gains_pushAll queue fun event hevent =>
      isInbound_of_mem_notes (fun fault hrejected => ?_) hevent
    exact fault_of_answer hlaid (hrejected ▸ hanswer)
  · rw [hdoes]
    exact gains_pushAll queue fun event hevent => isInbound_of_mem_remarks hlaid hevent

theorem hearByte_gains (master : Master) (byte : UInt8) (queue : EventQueue) :
    Gains IsInbound queue (master.hearByte byte queue).2 := by
  rw [hearByte_eq]
  cases hfeed : (master.receiver.feed byte).2 with
  | error error =>
      rw [Receiver.eq_of_feed_error hfeed]
      exact gains_push queue ⟨rfl, .inl rfl⟩
  | ok frame? =>
      cases frame? with
      | none => exact gains_refl queue
      | some frame =>
          -- This is where the length rules of the receiver come in.
          rcases Receiver.laidOut_of_feed hfeed with ⟨incoming, hlaid⟩
          exact onFrame_gains _ hlaid queue

/-- Bytes add inbound notes only, by induction over them. -/
theorem hearBytes_gains (master : Master) (bytes : List UInt8) (queue : EventQueue) :
    Gains IsInbound queue (master.hearBytes queue bytes).2 := by
  induction bytes generalizing master queue with
  | nil => exact gains_refl queue
  | cons byte rest ih => exact gains_trans (hearByte_gains master byte queue) (ih _ _)

/-- The one note of a flush is a dropped frame. -/
theorem flushStale_gains (master : Master) (now : Millis) (queue : EventQueue) :
    Gains IsInbound queue (master.flushStale now queue).2 := by
  by_cases hfresh : master.IsFresh now
  · rw [flushStale_of_fresh hfresh]
    exact gains_refl queue
  · rw [flushStale_of_stale hfresh]
    exact gains_push queue ⟨rfl, .inr rfl⟩

/-- Hearing notes no request, in the flush before the bytes or in the bytes. -/
theorem hear_gains (master : Master) (now : Millis) (bytes : List UInt8) (queue : EventQueue) :
    Gains IsInbound queue (master.hear now bytes queue).2 := by
  rw [hear]
  by_cases hempty : bytes.isEmpty = true
  · rw [if_pos hempty]
    exact gains_refl queue
  · rw [if_neg hempty]
    exact gains_trans (flushStale_gains master now queue) (hearBytes_gains _ bytes _)

/-- A poll given up is noted with what it does to the link. -/
theorem resolveFailure_gains (master : Master) (queue : EventQueue) :
    Gains IsInbound queue (master.resolveFailure queue).2 := by
  rw [resolveFailure_eq]
  refine gains_pushAll queue fun event hevent => ?_
  simp only [List.mem_append, Option.mem_toList, Option.map_eq_some_iff] at hevent
  rcases hevent with ⟨kind, _, rfl⟩ | hchange
  · exact ⟨rfl, trivial⟩
  · exact isInbound_of_mem_change hchange

/-- The look at the clock flushes first and gives up the poll afterwards. Both
    add inbound notes. -/
theorem checkTimeouts_gains (master : Master) (now : Millis) (queue : EventQueue) :
    Gains IsInbound queue (master.checkTimeouts now queue).2 := by
  have hflush := flushStale_gains master now queue
  rw [checkTimeouts]
  by_cases hoverdue : (master.flushStale now queue).1.isOverdue now = true
  · simp only [if_pos hoverdue]
    exact gains_trans hflush (resolveFailure_gains _ _)
  · simp only [if_neg hoverdue]
    exact hflush

end Master

end DoorBus

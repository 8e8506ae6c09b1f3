import DoorBus.Proofs.Master.Watch

/-!
# Where the Clock Starts

The clock of a bridge counts milliseconds from anywhere on, and wraps around.
A bus master should not care. This module runs a master twice, the second time
on a clock that is ahead by some offset, and shows that nobody can tell the two
runs apart: each operation gives the same and leaves the same phase and the
same record. If the offset is chosen well, one of the clocks wraps anywhere in
the run and the other does not.

The master keeps three readings of the clock, and two of them start out as zero
on both clocks. So the second master is not just the first one with its
readings moved. What saves it is that it does not look at a reading before
having written it. The time of sending is looked at only while an answer is
due, and the time of the last bytes only while there are bytes of an unfinished
frame. `Ahead` says that much of the two masters and no more.

Nothing is asked of the caller here, who may use the master in any order.

## Main definitions

* `Master.Timeless`: An operation that has nothing to do with the clock.
* `Call.later`, `Use.later`: The same on a clock that is ahead.
* `Master.Ahead`: The same master on a clock that is ahead.
* `Master.Use`, `Master.Sight`: What a caller does, and what it can see.
* `Master.sights`: What it can see in the course of a run.

## Theorems

* `elapsed_add`: Elapsed times are the same on both clocks.
* `onFrame_timeless`, `hearBytes_timeless`, `resolveFailure_timeless`: Frames
  and failures are timeless.
* `alike_of_timeless`: A timeless operation is the same on both clocks.
* `isDue_ahead`, `isFresh_ahead`, `isOverdue_ahead`: So is each look at a
  reading.
* `call_ahead`, `sights_ahead`: So are calls, and runs of them.
* `sights_later`: Nobody can tell where the clock started.
-/

namespace DoorBus

/-- Elapsed times do not depend on where the counter starts. -/
theorem Millis.elapsed_add (since now offset : Millis) :
    elapsed (since + offset) (now + offset) = elapsed since now := by
  rw [elapsed, elapsed]
  grind

/-- Only when the request has been sent does the phase begin to wait. -/
theorem Phase.isAwaiting_of_next {phase : Phase} {step : PhaseStep} (hstep : step ≠ .transmitted)
    (h : (phase.next step).isAwaiting = true) : phase.isAwaiting = true := by
  cases phase with
  | awaiting kind => rfl
  | sending kind =>
      cases step with
      | transmitted => exact absurd rfl hstep
      | start _ | transmitFailed | responseReceived | responseRejected | deadlineElapsed
      | settled => exact absurd h Bool.false_ne_true
  | idle => cases step <;> exact absurd h Bool.false_ne_true
  | completed kind => cases step <;> exact absurd h Bool.false_ne_true
  | timedOut kind => cases step <;> exact absurd h Bool.false_ne_true

namespace Master

/-! ## Operations without a clock -/

/-- The master with other readings of the clock. -/
def withTimes (master : Master) (lastPoll : Option Millis) (sentAt lastHeard : Millis) : Master :=
  { master with lastPoll, sentAt, lastHeard }

/-- An operation that has nothing to do with the clock. It neither reads nor
    writes one of the readings, and does not begin to wait for an answer. -/
structure Timeless (operation : Master → EventQueue → Master × EventQueue) : Prop where
  withTimes_eq : ∀ master lastPoll sentAt lastHeard queue,
    operation (master.withTimes lastPoll sentAt lastHeard) queue
      = ((operation master queue).1.withTimes lastPoll sentAt lastHeard,
        (operation master queue).2)
  awaiting : ∀ master queue, (operation master queue).1.phase.isAwaiting = true →
    master.phase.isAwaiting = true

/-- Two operations that read no clock, one after the other, read none. -/
theorem timeless_then {first second : Master → EventQueue → Master × EventQueue}
    (hfirst : Timeless first) (hsecond : Timeless second) :
    Timeless fun master queue => second (first master queue).1 (first master queue).2 where
  withTimes_eq master lastPoll sentAt lastHeard queue := by
    rw [hfirst.withTimes_eq, hsecond.withTimes_eq]
  awaiting master queue h := hfirst.awaiting _ _ (hsecond.awaiting _ _ h)

/-- A timeless operation leaves the readings alone, since it does so with the
    readings that there are. -/
theorem readings_of_timeless {operation : Master → EventQueue → Master × EventQueue}
    (h : Timeless operation) (master : Master) (queue : EventQueue) :
    (operation master queue).1.lastPoll = master.lastPoll ∧
      (operation master queue).1.sentAt = master.sentAt ∧
      (operation master queue).1.lastHeard = master.lastHeard := by
  have hsame : (operation master queue).1 = (operation master queue).1.withTimes master.lastPoll
      master.sentAt master.lastHeard :=
    congrArg Prod.fst
      (h.withTimes_eq master master.lastPoll master.sentAt master.lastHeard queue)
  rw [hsame]
  exact ⟨rfl, rfl, rfl⟩

/-- The handling of a frame reads no clock. -/
theorem onFrame_timeless (frame : Frame) : Timeless fun master => master.onFrame frame where
  withTimes_eq master lastPoll sentAt lastHeard queue := by
    rcases master.onFrame_cases frame with ⟨kind, outcome, hphase, hanswer, hdoes⟩ | ⟨hnone, hdoes⟩
    · have hphase' : (master.withTimes lastPoll sentAt lastHeard).phase = .awaiting kind := hphase
      rw [hdoes, onFrame_of_answer hphase' hanswer]
      rfl
    · have hnone' : ∀ kind, (master.withTimes lastPoll sentAt lastHeard).phase = .awaiting kind →
          kind.answer? frame = none := hnone
      rw [hdoes, onFrame_of_not_answer hnone']
      rfl
  awaiting master queue h := by
    rcases master.onFrame_cases frame with ⟨kind, outcome, hphase, hanswer, hdoes⟩ | ⟨hnone, hdoes⟩
    · rw [hphase]
      rfl
    · rw [hdoes] at h
      exact h

/-- A byte reads no clock. The time only comes in with the silence before it. -/
theorem hearByte_timeless (byte : UInt8) : Timeless fun master => master.hearByte byte where
  withTimes_eq master lastPoll sentAt lastHeard queue := by
    have hfed : (master.withTimes lastPoll sentAt lastHeard).fed byte
        = (master.fed byte).withTimes lastPoll sentAt lastHeard := rfl
    have hreceiver : (master.withTimes lastPoll sentAt lastHeard).receiver = master.receiver := rfl
    rw [hearByte_eq, hearByte_eq, hfed, hreceiver]
    cases (master.receiver.feed byte).2 with
    | error error => rfl
    | ok frame? =>
        cases frame? with
        | none => rfl
        | some frame =>
            exact (onFrame_timeless frame).withTimes_eq _ lastPoll sentAt lastHeard queue
  awaiting master queue h := by
    rw [hearByte_eq] at h
    cases hresult : (master.receiver.feed byte).2 with
    | error error =>
        rw [hresult] at h
        exact h
    | ok frame? =>
        rw [hresult] at h
        cases frame? with
        | none => exact h
        | some frame => exact (onFrame_timeless frame).awaiting (master.fed byte) queue h

/-- Bytes, by induction, with a byte put in front of the others. -/
theorem hearBytes_timeless (bytes : List UInt8) :
    Timeless fun master queue => master.hearBytes queue bytes := by
  induction bytes with
  | nil => exact ⟨fun _ _ _ _ _ => rfl, fun _ _ h => h⟩
  | cons byte rest ih => exact timeless_then (hearByte_timeless byte) ih

/-- A poll that fails, by whatever step of the phase. -/
theorem resolveFailure_timeless {step : PhaseStep} (hstep : step ≠ .transmitted) :
    Timeless fun master => (master.move step).resolveFailure where
  withTimes_eq master lastPoll sentAt lastHeard queue := by
    rw [resolveFailure_eq, resolveFailure_eq]
    rfl
  awaiting master queue h := by
    rw [resolveFailure_eq] at h
    exact Phase.isAwaiting_of_next hstep (Phase.isAwaiting_of_next PhaseStep.noConfusion h)

/-! ## Two clocks -/

/-- A call on a clock that is ahead. -/
def Call.later (offset : Millis) : Call → Call
  | poll now action => poll (now + offset) action
  | sent now => sent (now + offset)
  | unsent => unsent
  | hear now bytes => hear (now + offset) bytes
  | check now => check (now + offset)

/-- The same master on a clock that is ahead. The time of sending is known only
    while an answer is due, and the time of the last bytes only while there are
    bytes of an unfinished frame. -/
inductive Ahead (offset : Millis) (here : Master) : Master → Prop
  /-- The readings that will be looked at are ahead. -/
  | intro {sentAt lastHeard : Millis}
    (hsent : here.phase.isAwaiting = true → sentAt = here.sentAt + offset)
    (hheard : here.receiver.pending ≠ 0 → lastHeard = here.lastHeard + offset) :
    Ahead offset here (here.withTimes (here.lastPoll.map (· + offset)) sentAt lastHeard)

/-- The same master on a clock that is ahead, and the same queue. -/
structure Alike (offset : Millis) (here there : Master × EventQueue) : Prop where
  ahead : Ahead offset here.1 there.1
  queue_eq : there.2 = here.2

/-- What a new master holds of the clock is never looked at. -/
theorem ahead_new (timing : Timing) (offset : Millis) :
    Ahead offset (new timing) (new timing) :=
  .intro (fun hawaiting => absurd hawaiting Bool.false_ne_true) fun hpending => absurd rfl hpending

section

variable {offset : Millis} {here there : Master}

theorem phase_ahead (h : Ahead offset here there) : there.phase = here.phase := by
  cases h
  rfl

theorem record_ahead (h : Ahead offset here there) : there.record = here.record := by
  cases h
  rfl

/-- Masters that run apart in time only ask for the same kind of poll next. -/
theorem nextKind_ahead (h : Ahead offset here there) : there.nextKind = here.nextKind := by
  rw [nextKind, nextKind, record_ahead h]

/-- A timeless operation is the same on both clocks. The bytes that it leaves
    may be others, if the time of the last bytes is known anyway. -/
theorem alike_of_timeless {operation : Master → EventQueue → Master × EventQueue}
    (h : Timeless operation) (here : Master) (queue : EventQueue) {sentAt lastHeard : Millis}
    (hsent : here.phase.isAwaiting = true → sentAt = here.sentAt + offset)
    (hheard : (operation here queue).1.receiver.pending ≠ 0 → lastHeard = here.lastHeard + offset) :
    Alike offset (operation here queue)
      (operation (here.withTimes (here.lastPoll.map (· + offset)) sentAt lastHeard) queue) := by
  rcases readings_of_timeless h here queue with ⟨hpoll, hsentAt, hlastHeard⟩
  rw [h.withTimes_eq, ← hpoll]
  refine ⟨.intro (fun hawaiting => ?_) fun hpending => ?_, rfl⟩
  · rw [hsentAt]
    exact hsent (h.awaiting here queue hawaiting)
  · rw [hlastHeard]
    exact hheard hpending

/-- A poll is due by the time since the last one. That time is the same on both
    clocks, also where a clock has wrapped in between. -/
theorem isDue_ahead (h : Ahead offset here there) (now : Millis) :
    there.isDue (now + offset) = here.isDue now := by
  rw [isDue, isDue, phase_ahead h]
  rcases h with ⟨_, _⟩
  rw [withTimes]
  cases here.lastPoll with
  | none => rfl
  | some last => simp only [Option.map_some, Millis.elapsed_add]

/-- An unfinished frame is given up at the same time: if there are bytes of
    one, then the time of the last bytes is ahead. -/
theorem isFresh_ahead (h : Ahead offset here there) (now : Millis) :
    there.IsFresh (now + offset) ↔ here.IsFresh now := by
  rcases h with @⟨sentAt, lastHeard, _, hheard⟩
  by_cases hempty : here.receiver.pending = 0
  · exact iff_of_true (.inl hempty) (.inl hempty)
  · rw [hheard hempty, IsFresh, IsFresh, withTimes]
    simp only [Millis.elapsed_add]

/-- Staleness is a matter of a difference as well. -/
theorem flushStale_ahead (h : Ahead offset here there) (now : Millis) (queue : EventQueue) :
    Alike offset (here.flushStale now queue) (there.flushStale (now + offset) queue) := by
  by_cases hfresh : here.IsFresh now
  · rw [flushStale_of_fresh hfresh, flushStale_of_fresh ((isFresh_ahead h now).mpr hfresh)]
    exact ⟨h, rfl⟩
  · rw [flushStale_of_stale hfresh, flushStale_of_stale (mt (isFresh_ahead h now).mp hfresh)]
    rcases h with ⟨hsent, _⟩
    exact ⟨.intro hsent fun hpending => absurd rfl hpending, rfl⟩

/-- With the time of the bytes written, the bytes themselves are timeless. -/
theorem hearBytes_ahead (h : Ahead offset here there) (now : Millis) (bytes : List UInt8)
    (queue : EventQueue) :
    Alike offset (({ here with lastHeard := now }).hearBytes queue bytes)
      (({ there with lastHeard := now + offset }).hearBytes queue bytes) := by
  rcases h with ⟨hsent, _⟩
  exact alike_of_timeless (hearBytes_timeless bytes) { here with lastHeard := now } queue hsent
    fun _ => rfl

/-- Bytes heard at times that are apart by the offset do the same. The flush
    compares differences, and what follows reads no clock. -/
theorem hear_ahead (h : Ahead offset here there) (now : Millis) (bytes : List UInt8)
    (queue : EventQueue) :
    Alike offset (here.hear now bytes queue) (there.hear (now + offset) bytes queue) := by
  by_cases hempty : bytes.isEmpty = true
  · rw [hear, hear, if_pos hempty, if_pos hempty]
    exact ⟨h, rfl⟩
  · have hflush := flushStale_ahead h now queue
    rw [hear, hear, if_neg hempty, if_neg hempty]
    simp only [hflush.queue_eq]
    exact hearBytes_ahead hflush.ahead now bytes _

/-- The answer is overdue at the same time: while it is due, the time of
    sending is ahead. -/
theorem isOverdue_ahead (h : Ahead offset here there) (now : Millis) :
    there.isOverdue (now + offset) = here.isOverdue now := by
  rcases h with @⟨sentAt, lastHeard, hsent, _⟩
  by_cases hawaiting : here.phase.isAwaiting = true
  · rw [hsent hawaiting, isOverdue, isOverdue, withTimes]
    simp only [Millis.elapsed_add]
  · rw [isOverdue, isOverdue, withTimes]
    simp only [Bool.eq_false_iff.mpr hawaiting, Bool.false_and]

/-- A poll fails alike, by whatever step of the phase. -/
theorem resolveFailure_ahead (h : Ahead offset here there) {step : PhaseStep}
    (hstep : step ≠ .transmitted) (queue : EventQueue) :
    Alike offset ((here.move step).resolveFailure queue)
      ((there.move step).resolveFailure queue) := by
  rcases h with ⟨hsent, hheard⟩
  have hreceiver : ((here.move step).resolveFailure queue).1.receiver = here.receiver := by
    rw [resolveFailure_eq]
    rfl
  refine alike_of_timeless (resolveFailure_timeless hstep) here queue hsent fun hpending =>
    hheard ?_
  rw [← hreceiver]
  exact hpending

/-- A poll is given up after the same time on both clocks. -/
theorem checkTimeouts_ahead (h : Ahead offset here there) (now : Millis) (queue : EventQueue) :
    Alike offset (here.checkTimeouts now queue) (there.checkTimeouts (now + offset) queue) := by
  have hflush := flushStale_ahead h now queue
  have hoverdue := isOverdue_ahead hflush.ahead now
  rw [checkTimeouts, checkTimeouts]
  simp only [hoverdue, hflush.queue_eq]
  by_cases hlate : (here.flushStale now queue).1.isOverdue now = true
  · rw [if_pos hlate, if_pos hlate]
    exact resolveFailure_ahead hflush.ahead PhaseStep.noConfusion _
  · rw [if_neg hlate, if_neg hlate]
    exact ⟨hflush.ahead, rfl⟩

theorem begun_ahead (h : Ahead offset here there) (now : Millis) :
    Ahead offset (here.begun now) (there.begun (now + offset)) := by
  rcases h with ⟨hsent, hheard⟩
  exact .intro (fun hawaiting => hsent (Phase.isAwaiting_of_next PhaseStep.noConfusion hawaiting))
    hheard

theorem transmitted_ahead (h : Ahead offset here there) (now : Millis) :
    Ahead offset (here.transmitted now) (there.transmitted (now + offset)) := by
  rcases h with ⟨_, hheard⟩
  exact .intro (fun _ => rfl) hheard

/-- On both clocks the same poll is begun, or none. -/
theorem poll_ahead (h : Ahead offset here there) (now : Millis) (action : ActionCode)
    (queue : EventQueue) :
    Alike offset (here.call (.poll now action) queue)
      (there.call (.poll (now + offset) action) queue) := by
  have hdue := isDue_ahead h now
  by_cases hhere : here.isDue now = true
  · rw [(poll_of_due hhere action).2, (poll_of_due (hdue.trans hhere) action).2, nextKind_ahead h]
    exact ⟨begun_ahead h now, rfl⟩
  · rw [(poll_of_not_due hhere action).2, (poll_of_not_due (hdue ▸ hhere) action).2]
    exact ⟨h, rfl⟩

/-- One step of the run: a call made later by the offset leaves masters that are
    apart by it, with the same notes. -/
theorem call_ahead (h : Ahead offset here there) (call : Call) (queue : EventQueue) :
    Alike offset (here.call call queue) (there.call (call.later offset) queue) := by
  cases call with
  | poll now action => exact poll_ahead h now action queue
  | sent now => exact ⟨transmitted_ahead h now, rfl⟩
  | unsent => exact resolveFailure_ahead h PhaseStep.noConfusion queue
  | hear now bytes => exact hear_ahead h now bytes queue
  | check now => exact checkTimeouts_ahead h now queue

/-- The caller gets the same request to send. -/
theorem request_ahead (h : Ahead offset here there) (call : Call) :
    there.request? (call.later offset) = here.request? call := by
  cases call with
  | poll now action =>
      have hdue := isDue_ahead h now
      by_cases hhere : here.isDue now = true
      · rw [(poll_of_due hhere action).1, Call.later, (poll_of_due (hdue.trans hhere) action).1,
          nextKind_ahead h]
      · rw [(poll_of_not_due hhere action).1, Call.later,
          (poll_of_not_due (hdue ▸ hhere) action).1]
  | sent now => rfl
  | unsent => rfl
  | hear now bytes => rfl
  | check now => rfl

end

/-! ## Runs on two clocks -/

/-- What a caller does with a bus master. -/
inductive Use
  /-- It asks whether it is time for a poll. -/
  | ask (now : Millis)
  /-- It makes a call, with a queue for the notes. -/
  | make (call : Call) (queue : EventQueue)

/-- The same on a clock that is ahead. -/
def Use.later (offset : Millis) : Use → Use
  | ask now => ask (now + offset)
  | make call queue => make (call.later offset) queue

/-- What the caller gets. -/
inductive Reply
  /-- Whether it is time. -/
  | due (answer : Bool)
  /-- The request, if one is handed out, and the queue. -/
  | done (request : Option (List UInt8)) (queue : EventQueue)
  deriving DecidableEq

/-- What the caller can see behind an operation. -/
structure Sight where
  /-- What it gets. -/
  reply : Reply
  /-- How far the poll under way has come. -/
  phase : Phase
  /-- What has been learned about the drive. -/
  record : DriveRecord
  deriving DecidableEq

/-- The master after an operation. -/
def used (master : Master) : Use → Master
  | .ask _ => master
  | .make call queue => (master.call call queue).1

/-- What the caller gets of an operation. -/
def reply (master : Master) : Use → Reply
  | .ask now => .due (master.isDue now)
  | .make call queue => .done (master.request? call) (master.call call queue).2

/-- What the caller can see in the course of a run. -/
def sights (master : Master) : List Use → List Sight
  | [] => []
  | use :: rest =>
    ⟨master.reply use, (master.used use).phase, (master.used use).record⟩
      :: (master.used use).sights rest

section

variable {offset : Millis} {here there : Master}

/-- One step of a use: what a caller may do with a master leaves them apart by
    the same offset. -/
theorem used_ahead (h : Ahead offset here there) (use : Use) :
    Ahead offset (here.used use) (there.used (use.later offset)) := by
  cases use with
  | ask now => exact h
  | make call queue => exact (call_ahead h call queue).ahead

/-- What the caller is told does not show the offset either. -/
theorem reply_ahead (h : Ahead offset here there) (use : Use) :
    there.reply (use.later offset) = here.reply use := by
  cases use with
  | ask now => exact congrArg Reply.due (isDue_ahead h now)
  | make call queue =>
      rw [reply, Use.later, reply, request_ahead h, (call_ahead h call queue).queue_eq]

/-- Two masters on two clocks are seen to do the same, however long they
    run. -/
theorem sights_ahead (h : Ahead offset here there) (uses : List Use) :
    there.sights (uses.map (.later offset)) = here.sights uses := by
  induction uses generalizing here there with
  | nil => rfl
  | cons use uses ih =>
      have hused := used_ahead h use
      rw [List.map_cons, sights, sights, reply_ahead h, ih hused, phase_ahead hused,
        record_ahead hused]

end

/-- Where the clock starts makes no difference. For any timing, any operations
    in any order and any offset, the run of a new master on a clock that is
    ahead by the offset gives the same replies, which are whether a poll is
    due, the requests and the queues, and goes through the same phases and
    records. -/
theorem sights_later (timing : Timing) (offset : Millis) (uses : List Use) :
    (new timing).sights (uses.map (.later offset)) = (new timing).sights uses :=
  sights_ahead (ahead_new timing offset) uses

end Master

end DoorBus

import DoorBus.Proofs.Master.History
import DoorBus.Proofs.Wire.Coverage
import DoorBus.Proofs.Wire.Request

/-!
# The Master Keeps to the Reference

Each operation of the bus master is matched with the occurrences it stands
for. What it does to the phase, to the record and to the notes is then what the
reference makes of these occurrences. This is said by `Course`, for any piece
of a run from a settled master on. Courses compose, so that a run of bytes
needs no more than an induction with the course of one byte.

An operation may be given any queue. `Takes` says of an operation that it has
one course, and that it treats every queue alike: the notes of the course are
pushed, as far as there is room.

## Main definitions

* `Receiver.found`: The frames that a run of bytes brings.
* `Master.flight`: The poll in flight, as the master has it.
* `Master.Settled`: No outcome is left to be dealt with.
* `Master.marks`: The marks that the reference makes of occurrences.
* `Master.Course`: A piece of a run that keeps to the reference.
* `Master.Takes`: An operation with a course.
* `Master.IsFresh`: There is no unfinished frame to be given up.

## Theorems

* `course_append`, `takes_then`: Courses compose.
* `course_of_unmarked`, `course_of_resolved`: Two short courses.
* `onFrame_takes`, `hearBytes_takes`, `hear_takes`: Frames and bytes.
* `checkTimeouts_takes`: Someone looks at the clock.
* `beginIfDue_of_due`, `beginIfDue_of_not_due`: A poll is begun, or is not.
-/

namespace DoorBus

namespace Receiver

/-- The frame that a byte has returned. -/
def returned : Except FrameError (Option Frame) → Option Frame
  | .ok frame => frame
  | .error _ => none

/-- The frames that a run of bytes brings. -/
def found (receiver : Receiver) (bytes : List UInt8) : List Frame :=
  (receiver.feedAll bytes).2.filterMap returned

theorem found_cons (receiver : Receiver) (byte : UInt8) (rest : List UInt8) :
    receiver.found (byte :: rest)
      = (returned (receiver.feed byte).2).toList ++ (receiver.feed byte).1.found rest := by
  rw [found, feedAll_cons, filterMap_cons_toList, found]

end Receiver

namespace Master

/-- The poll in flight, as the master has it. -/
def flight (master : Master) : Flight :=
  match master.phase with
  | .idle | .completed _ | .timedOut _ => .idle
  | .sending kind => .sending kind
  | .awaiting kind => .awaiting kind master.sentAt

/-- The flight is read off two fields only. An operation that leaves both alone
    leaves the flight alone. -/
theorem flight_congr {before after : Master} (hphase : after.phase = before.phase)
    (hsent : after.sentAt = before.sentAt) : after.flight = before.flight := by
  rw [flight, flight, hphase, hsent]

/-- No outcome is left to be dealt with. -/
def Settled (master : Master) : Prop :=
  master.phase = master.flight.phase

theorem settled_of_idle {master : Master} (h : master.phase = .idle) : master.Settled := by
  rw [Settled, flight, h]
  rfl

/-- The flight after some occurrences, with the marks, as the reference has
    it. -/
def followed (master : Master) (occurrences : List Occurrence) : Flight × List Mark :=
  master.flight.follow master.timing.responseTimeout occurrences

/-- The marks that the reference makes of some occurrences. -/
def marks (master : Master) (occurrences : List Occurrence) : List Mark :=
  (master.followed occurrences).2

/-! ## Courses -/

/-- A piece of a run that keeps to the reference: flight, record and notes are
    what it makes of the occurrences, whose marks take turns. -/
structure Course (before : Master) (occurrences : List Occurrence) (after : Master)
    (notes : List Event) : Prop where
  timing_eq : after.timing = before.timing
  settled : after.Settled
  flight_eq : after.flight = (before.followed occurrences).1
  alternates : Alternates before.flight.kind? (before.marks occurrences) after.flight.kind?
  record_eq : after.record
    = before.record.following occurrences (outcomes (before.marks occurrences))
  tidings_eq : tidings notes = before.record.link.report (before.marks occurrences)

theorem Course.link_eq {before after : Master} {occurrences : List Occurrence}
    {notes : List Event} (h : Course before occurrences after notes) :
    after.record.link = before.record.link.afterAll (outcomes (before.marks occurrences)) := by
  rw [h.record_eq]
  rfl

/-- The reference splits where the course does: what follows starts from the
    flight that the course has left. -/
theorem followed_append {before middle : Master} {xs : List Occurrence} {notes : List Event}
    (h : Course before xs middle notes) (ys : List Occurrence) :
    before.followed (xs ++ ys)
      = ((middle.followed ys).1, before.marks xs ++ middle.marks ys) := by
  rw [followed, Flight.follow_append, marks, marks, followed, followed, h.timing_eq, h.flight_eq]
  rfl

/-- Courses compose. -/
theorem course_append {before middle after : Master} {xs ys : List Occurrence}
    {notes more : List Event} (h : Course before xs middle notes)
    (h' : Course middle ys after more) : Course before (xs ++ ys) after (notes ++ more) := by
  have hmarks : before.marks (xs ++ ys) = before.marks xs ++ middle.marks ys := by
    rw [marks, followed_append h]
  -- Each part of the course goes from the first state over the middle to the last.
  refine ⟨h'.timing_eq.trans h.timing_eq, h'.settled, ?_, ?_, ?_, ?_⟩
  · rw [followed_append h, h'.flight_eq]
  · rw [hmarks]
    exact alternates_append h.alternates h'.alternates
  · rw [hmarks, outcomes_append, ← DriveRecord.following_append, ← h.record_eq, h'.record_eq]
  · rw [hmarks, report_append, ← h.link_eq, tidings_append, h.tidings_eq, h'.tidings_eq]

/-- A piece of a run that the reference makes nothing of. -/
theorem course_of_unmarked {before after : Master} {occurrences : List Occurrence}
    {notes : List Event} (hsettled : before.Settled)
    (hfollow : before.followed occurrences = (before.flight, []))
    (hphase : after.phase = before.phase) (hsent : after.sentAt = before.sentAt)
    (htiming : after.timing = before.timing)
    (hrecord : after.record = before.record.following occurrences [])
    (hnotes : tidings notes = []) : Course before occurrences after notes := by
  have hflight := flight_congr hphase hsent
  have hmarks : before.marks occurrences = [] := by rw [marks, hfollow]
  refine ⟨htiming, ?_, ?_, ?_, ?_, ?_⟩
  · rw [Settled, hphase, hflight, hsettled]
  · rw [hfollow, hflight]
  · rw [hmarks, hflight]
    exact .done _
  · rw [hmarks, hrecord]
    rfl
  · rw [hmarks, hnotes]
    rfl

/-- A piece of a run in which the poll in flight is resolved. -/
theorem course_of_resolved {before after : Master} {occurrences : List Occurrence}
    {notes : List Event} {kind : PollKind} {outcome : Outcome}
    (hkind : before.flight.kind? = some kind)
    (hfollow : before.followed occurrences = (.idle, [.resolved kind outcome]))
    (hphase : after.phase = .idle) (htiming : after.timing = before.timing)
    (hmute : statuses occurrences = []) (hrecord : after.record = before.record.after outcome)
    (hnotes : notes = outcome.notes kind (before.record.link.after outcome).2) :
    Course before occurrences after notes := by
  have hidle : after.flight = .idle := by rw [flight, hphase]
  have hmarks : before.marks occurrences = [.resolved kind outcome] := by rw [marks, hfollow]
  refine ⟨htiming, settled_of_idle hphase, ?_, ?_, ?_, ?_⟩
  · rw [hfollow, hidle]
  · rw [hmarks, hkind, hidle]
    exact .resolve (.done _)
  · rw [hmarks, hrecord, ← DriveRecord.following_of_mute hmute]
    rfl
  · rw [hmarks, hnotes, tidings_notes, Link.report, Link.report, List.append_nil]

/-! ## Operations -/

/-- An operation has a course, and treats every queue alike. -/
def Takes (before : Master) (occurrences : List Occurrence)
    (operation : EventQueue → Master × EventQueue) : Prop :=
  ∃ after notes, (∀ queue, operation queue = (after, queue.pushAll notes)) ∧
    Course before occurrences after notes

/-- Nothing done is a course without occurrences, as long as no outcome is left
    from before. It is the branch of an operation that does not apply. -/
theorem takes_nothing {before : Master} (hsettled : before.Settled) :
    Takes before [] fun queue => (before, queue) :=
  ⟨before, [], fun _ => rfl, course_of_unmarked hsettled rfl rfl rfl rfl rfl rfl⟩

/-- An operation may be followed by another one. -/
theorem takes_then {before : Master} {xs ys : List Occurrence}
    {first : EventQueue → Master × EventQueue}
    (second : Master → EventQueue → Master × EventQueue) (hfirst : Takes before xs first)
    (hsecond : ∀ middle notes, (∀ queue, (first queue).1 = middle) →
      Course before xs middle notes → Takes middle ys (second middle)) :
    Takes before (xs ++ ys) fun queue => second (first queue).1 (first queue).2 := by
  rcases hfirst with ⟨middle, notes, hdoes, hcourse⟩
  have hmiddle : ∀ queue, (first queue).1 = middle := fun queue => by rw [hdoes]
  rcases hsecond middle notes hmiddle hcourse with ⟨after, more, hdoes', hcourse'⟩
  refine ⟨after, notes ++ more, fun queue => ?_, course_append hcourse hcourse'⟩
  simp only [hdoes, hdoes', EventQueue.pushAll_append]

/-! ## Frames and bytes -/

/-- For one occurrence the reference takes one step, so each operation is
    compared with a single line of `Flight.step`. -/
theorem followed_singleton (master : Master) (occurrence : Occurrence) :
    master.followed [occurrence] = master.flight.step master.timing.responseTimeout occurrence :=
  Flight.follow_singleton _ _ _

/-- A frame that answers the poll in flight ends it, with the outcome that the
    frame reads as. -/
theorem followed_heard {master : Master} {kind : PollKind} {frame : Frame} {outcome : Outcome}
    (hphase : master.phase = .awaiting kind) (h : kind.answer? frame = some outcome) :
    master.followed [.heard frame] = (.idle, [.resolved kind outcome]) := by
  rw [followed_singleton, flight, hphase]
  simp only [Flight.step, h]

/-- A frame that answers nothing leaves the flight as it is, in whatever phase
    the master is. -/
theorem followed_heard_of_none {master : Master} {frame : Frame}
    (h : ∀ kind, master.phase = .awaiting kind → kind.answer? frame = none) :
    master.followed [.heard frame] = (master.flight, []) := by
  rw [followed_singleton]
  unfold flight
  cases hphase : master.phase with
  | awaiting kind => simp only [Flight.step, h kind hphase]
  | idle => rfl
  | sending kind => rfl
  | completed kind => rfl
  | timedOut kind => rfl

/-- The handling of a frame keeps to the reference. It ends the poll in flight,
    or it concerns no poll at all. -/
theorem onFrame_takes {master : Master} (hsettled : master.Settled) (frame : Frame) :
    Takes master [.heard frame] (master.onFrame frame) := by
  rcases master.onFrame_cases frame with ⟨kind, outcome, hphase, hanswer, hdoes⟩ | ⟨hnone, hdoes⟩
  · have hkind : master.flight.kind? = some kind := by
      rw [flight, hphase]
      rfl
    have hmute : statuses [.heard frame] = [] :=
      List.filterMap_cons_none (status_of_answer hanswer)
    -- An answer carries no status of its own beside the outcome.
    exact ⟨_, _, hdoes, course_of_resolved hkind (followed_heard hphase hanswer) rfl rfl hmute rfl
      rfl⟩
  · exact ⟨_, _, hdoes, course_of_unmarked hsettled (followed_heard_of_none hnone) rfl rfl rfl
      (DriveRecord.following_heard _ _).symm (tidings_remarks _ _)⟩

theorem onFrame_receiver (master : Master) (frame : Frame) (queue : EventQueue) :
    (master.onFrame frame queue).1.receiver = master.receiver := by
  rcases master.onFrame_cases frame with ⟨_, _, _, _, hdoes⟩ | ⟨_, hdoes⟩
  · rw [hdoes]
  · rw [hdoes]

/-- A change of the receiver, or of what else is kept beside the polls, is no
    matter of the polls. -/
theorem takes_of_same {before after : Master} {occurrences : List Occurrence}
    {operation : EventQueue → Master × EventQueue}
    (h : Takes after occurrences operation) (hphase : after.phase = before.phase)
    (hsent : after.sentAt = before.sentAt) (htiming : after.timing = before.timing)
    (hrecord : after.record = before.record) : Takes before occurrences operation := by
  rcases h with ⟨last, notes, hdoes, hcourse⟩
  have hflight := flight_congr hphase hsent
  -- A course only speaks of the phase, the time of sending, the timing and the record.
  have hfollowed : after.followed occurrences = before.followed occurrences := by
    rw [followed, followed, hflight, htiming]
  have hmarks : after.marks occurrences = before.marks occurrences := by
    rw [marks, marks, hfollowed]
  refine ⟨last, notes, hdoes, hcourse.timing_eq.trans htiming, hcourse.settled, ?_, ?_, ?_, ?_⟩
  · rw [hcourse.flight_eq, hfollowed]
  · rw [← hflight, ← hmarks]
    exact hcourse.alternates
  · rw [← hrecord, ← hmarks]
    exact hcourse.record_eq
  · rw [← hrecord, ← hmarks]
    exact hcourse.tidings_eq

theorem settled_congr {before after : Master} (h : before.Settled)
    (hphase : after.phase = before.phase) (hsent : after.sentAt = before.sentAt) :
    after.Settled := by
  rw [Settled, hphase, flight_congr hphase hsent, h]

/-- The master with a byte taken by its receiver. -/
def fed (master : Master) (byte : UInt8) : Master :=
  { master with receiver := (master.receiver.feed byte).1 }

/-- The master fed a byte is named `fed`, whatever came of it. The branches then
    only differ in what they do with it. -/
theorem hearByte_eq (master : Master) (byte : UInt8) (queue : EventQueue) :
    master.hearByte byte queue =
      match (master.receiver.feed byte).2 with
      | .ok (some frame) => (master.fed byte).onFrame frame queue
      | .ok none => (master.fed byte, queue)
      | .error error => (master.fed byte, queue.push (.frameDropped (.ofFrameError error))) := rfl

/-- A byte is the occurrence of the frame that it completes, if any. A byte that
    completes none, or breaks one, is no occurrence for the polls. -/
theorem hearByte_takes {master : Master} (hsettled : master.Settled) (byte : UInt8) :
    Takes master ((Receiver.returned (master.receiver.feed byte).2).toList.map .heard)
      (master.hearByte byte) := by
  have hfed : (master.fed byte).Settled := settled_congr hsettled rfl rfl
  rw [funext (master.hearByte_eq byte)]
  cases (master.receiver.feed byte).2 with
  | ok frame? =>
      cases frame? with
      | none => exact takes_of_same (takes_nothing hfed) rfl rfl rfl rfl
      | some frame => exact takes_of_same (onFrame_takes hfed frame) rfl rfl rfl rfl
  | error error =>
      exact ⟨_, [.frameDropped (.ofFrameError error)], fun _ => rfl,
        course_of_unmarked hsettled rfl rfl rfl rfl rfl rfl⟩

/-- What becomes of the receiver is a matter of the byte alone and not of the
    frame that it completes. -/
theorem hearByte_receiver (master : Master) (byte : UInt8) (queue : EventQueue) :
    (master.hearByte byte queue).1.receiver = (master.receiver.feed byte).1 := by
  rw [hearByte_eq]
  cases (master.receiver.feed byte).2 with
  | ok frame? =>
      cases frame? with
      | none => rfl
      | some frame => exact onFrame_receiver _ _ _
  | error error => rfl

/-- Bytes are taken one after the other, each with the frame that it brings. -/
theorem hearBytes_takes {master : Master} (hsettled : master.Settled) (bytes : List UInt8) :
    Takes master ((master.receiver.found bytes).map .heard)
      fun queue => master.hearBytes queue bytes := by
  induction bytes generalizing master with
  | nil => exact takes_nothing hsettled
  | cons byte rest ih =>
      have hstep : (fun queue => master.hearBytes queue (byte :: rest)) = fun queue =>
          (master.hearByte byte queue).1.hearBytes (master.hearByte byte queue).2 rest := rfl
      rw [Receiver.found_cons, List.map_append, hstep]
      refine takes_then (hearBytes · · rest) (hearByte_takes hsettled byte)
        fun middle notes hmiddle hcourse => ?_
      -- The frames to come are those of the receiver that the byte has left.
      rw [← hearByte_receiver master byte .empty, hmiddle]
      exact ih hcourse.settled

/-! ## Silence and time -/

/-- There is no unfinished frame, or it is too early to give it up. -/
def IsFresh (master : Master) (now : Millis) : Prop :=
  master.receiver.pending = 0 ∨ Millis.elapsed master.lastHeard now < master.timing.frameGap

theorem flushStale_of_fresh {master : Master} {now : Millis} (h : master.IsFresh now)
    (queue : EventQueue) : master.flushStale now queue = (master, queue) :=
  if_pos h

/-- Stale bytes are dropped with one note. -/
theorem flushStale_of_stale {master : Master} {now : Millis} (h : ¬master.IsFresh now)
    (queue : EventQueue) :
    master.flushStale now queue
      = ({ master with receiver := {} }, queue.push (.frameDropped .truncated)) := by
  have hheld : ¬master.receiver.buffer.isEmpty = true := fun hempty =>
    h (.inl (List.length_eq_zero_iff.mpr (List.isEmpty_iff.mp hempty)))
  have hflush : master.receiver.flush = ({}, .error .truncated) := if_neg hheld
  have hstale : ¬(master.receiver.pending = 0 ∨
      Millis.elapsed master.lastHeard now < master.timing.frameGap) := h
  rw [flushStale, if_neg hstale, hflush]
  rfl

/-- The flush keeps to the reference: its note is no tidings, and neither flight
    nor record hear of it. -/
theorem flushStale_takes {master : Master} (hsettled : master.Settled) (now : Millis) :
    Takes master [] (master.flushStale now) := by
  by_cases hfresh : master.IsFresh now
  · rw [funext (flushStale_of_fresh hfresh)]
    exact takes_nothing hsettled
  · rw [funext (flushStale_of_stale hfresh)]
    exact ⟨{ master with receiver := {} }, [.frameDropped .truncated], fun _ => rfl,
      course_of_unmarked hsettled rfl rfl rfl rfl rfl rfl⟩

/-- The receiver after an unfinished frame has been given up, if it was time
    to. -/
def refreshed (master : Master) (now : Millis) : Receiver :=
  (master.flushStale now .empty).1.receiver

theorem hear_takes {master : Master} (hsettled : master.Settled) (now : Millis)
    (bytes : List UInt8) :
    Takes master (((master.refreshed now).found bytes).map .heard) (master.hear now bytes) := by
  cases bytes with
  | nil => exact takes_nothing hsettled
  | cons byte rest =>
      -- First the unfinished frame, then the time of arrival, then the bytes.
      have hstep : master.hear now (byte :: rest) = fun queue =>
          ({ (master.flushStale now queue).1 with lastHeard := now }).hearBytes
            (master.flushStale now queue).2 (byte :: rest) := rfl
      rw [hstep, ← List.nil_append (List.map _ _)]
      refine takes_then (fun middle queue =>
        ({ middle with lastHeard := now }).hearBytes queue (byte :: rest))
        (flushStale_takes hsettled now) fun middle notes hmiddle hcourse => ?_
      have hsettled' : ({ middle with lastHeard := now } : Master).Settled :=
        settled_congr hcourse.settled rfl rfl
      rw [refreshed, hmiddle]
      exact takes_of_same (hearBytes_takes hsettled' _) rfl rfl rfl rfl

/-- A poll that has timed out is dealt with as one that is overdue. -/
theorem resolveFailure_of_timedOut {master : Master} {kind : PollKind}
    (h : master.phase = .timedOut kind) (queue : EventQueue) :
    master.resolveFailure queue =
      ({ master with phase := .idle, record := master.record.after .overdue },
        queue.pushAll (Outcome.overdue.notes kind (master.record.link.after .overdue).2)) := by
  rw [resolveFailure_eq, h]
  rfl

/-- A poll is overdue when it awaits an answer and the response time is up.
    Nothing else can be. -/
theorem isOverdue_iff {master : Master} {now : Millis} :
    master.isOverdue now = true ↔ (∃ kind, master.phase = .awaiting kind) ∧
      master.timing.responseTimeout ≤ Millis.elapsed master.sentAt now := by
  rw [isOverdue, Bool.and_eq_true, Phase.isAwaiting_iff, decide_eq_true_eq]

theorem followed_looked_of_overdue {master : Master} {kind : PollKind} {now : Millis}
    (hphase : master.phase = .awaiting kind)
    (h : master.timing.responseTimeout ≤ Millis.elapsed master.sentAt now) :
    master.followed [.looked now] = (.idle, [.resolved kind .overdue]) := by
  rw [followed_singleton, flight, hphase]
  exact if_pos h

/-- A look at the clock before the time is up changes nothing. -/
theorem followed_looked_of_not_overdue {master : Master} {now : Millis}
    (h : ¬master.isOverdue now = true) : master.followed [.looked now] = (master.flight, []) := by
  rw [followed_singleton]
  unfold flight
  cases hphase : master.phase with
  | awaiting kind => exact if_neg fun hlate => h (isOverdue_iff.mpr ⟨⟨kind, hphase⟩, hlate⟩)
  | idle => rfl
  | sending kind => rfl
  | completed kind => rfl
  | timedOut kind => rfl

/-- The deadline of the poll in flight is looked at. -/
theorem expire_takes {master : Master} (hsettled : master.Settled) (now : Millis) :
    Takes master [.looked now] fun queue =>
      if master.isOverdue now then (master.move .deadlineElapsed).resolveFailure queue
      else (master, queue) := by
  by_cases hoverdue : master.isOverdue now = true
  · rcases isOverdue_iff.mp hoverdue with ⟨⟨kind, hphase⟩, hlate⟩
    have hkind : master.flight.kind? = some kind := by
      rw [flight, hphase]
      rfl
    -- The master goes through a phase of its own on the way, which the flight does
    -- not have.
    have htimedOut : (master.move .deadlineElapsed).phase = .timedOut kind := by
      rw [move, hphase]
      rfl
    simp only [if_pos hoverdue]
    exact ⟨_, _, resolveFailure_of_timedOut htimedOut, course_of_resolved hkind
      (followed_looked_of_overdue hphase hlate) rfl rfl rfl rfl rfl⟩
  · simp only [if_neg hoverdue]
    exact ⟨master, [], fun _ => rfl, course_of_unmarked hsettled
      (followed_looked_of_not_overdue hoverdue) rfl rfl rfl rfl rfl⟩

/-- The look at the clock keeps to the reference, which takes the same look. -/
theorem checkTimeouts_takes {master : Master} (hsettled : master.Settled) (now : Millis) :
    Takes master [.looked now] (master.checkTimeouts now) := by
  rw [← List.nil_append [Occurrence.looked now]]
  exact takes_then (fun middle queue =>
    if middle.isOverdue now then (middle.move .deadlineElapsed).resolveFailure queue
    else (middle, queue)) (flushStale_takes hsettled now)
    fun middle notes hmiddle hcourse => expire_takes hcourse.settled now

/-! ## Requests -/

theorem followed_sent {master : Master} {kind : PollKind} (h : master.phase = .sending kind)
    (now : Millis) : master.followed [.sent now] = (.awaiting kind now, []) := by
  rw [followed_singleton, flight, h]
  rfl

theorem followed_unsent {master : Master} {kind : PollKind} (h : master.phase = .sending kind) :
    master.followed [.unsent] = (.idle, [.resolved kind .unsent]) := by
  rw [followed_singleton, flight, h]
  rfl

theorem followed_begun (master : Master) (kind : PollKind) (action : ActionCode) :
    master.followed [.begun kind action] = (.sending kind, [.begun kind action]) := by
  rw [followed_singleton]
  rfl

/-- From the report on, the flight awaits an answer from this time. No mark is
    made of it. -/
theorem transmitted_takes {master : Master} {kind : PollKind}
    (h : master.phase = .sending kind) (now : Millis) :
    Takes master [.sent now] fun queue => (master.transmitted now, queue) := by
  have hflight : master.flight = .sending kind := by rw [flight, h]
  have hphase : (master.transmitted now).phase = .awaiting kind := by
    rw [transmitted, move, h]
    rfl
  have hflight' : (master.transmitted now).flight = .awaiting kind now := by
    rw [flight, hphase]
    rfl
  have hmarks : master.marks [.sent now] = [] := by rw [marks, followed_sent h]
  -- Only the flight has something to show for it.
  refine ⟨master.transmitted now, [], fun _ => rfl, rfl, ?_, ?_, ?_, ?_, ?_⟩
  · rw [Settled, hphase, hflight']
    rfl
  · rw [followed_sent h, hflight']
  · rw [hmarks, hflight, hflight']
    exact .done _
  · rw [hmarks]
    rfl
  · rw [hmarks]
    rfl

theorem transmitFailed_takes {master : Master} {kind : PollKind}
    (h : master.phase = .sending kind) : Takes master [.unsent] master.transmitFailed := by
  have hkind : master.flight.kind? = some kind := by
    rw [flight, h]
    rfl
  -- From there on it is the same as an answer that is overdue.
  have htimedOut : (master.move .transmitFailed).phase = .timedOut kind := by
    rw [move, h]
    rfl
  exact ⟨_, _, resolveFailure_of_timedOut htimedOut,
    course_of_resolved hkind (followed_unsent h) rfl rfl rfl rfl rfl⟩

/-- The master with a poll begun. -/
def begun (master : Master) (now : Millis) : Master :=
  { master.move (.start master.nextKind) with lastPoll := some now }

section

variable {σ : Type}

/-- When it is time, a request is handed out with the action from the
    source. -/
theorem beginIfDue_of_due {master : Master} {now : Millis} (h : master.isDue now = true)
    (take : σ → σ × ActionCode) (source : σ) (queue : EventQueue) :
    master.beginIfDue now take source queue =
      ⟨master.begun now, (take source).1, queue.push (.sent master.nextKind (take source).2),
        .ok (some (Request.mk master.nextKind (take source).2).bytes)⟩ := by
  rw [beginIfDue, if_pos h]
  simp only [Request.encode_toFrame]
  rfl

/-- Before it is time, no action is taken from the source. -/
theorem beginIfDue_of_not_due {master : Master} {now : Millis} (h : ¬master.isDue now = true)
    (take : σ → σ × ActionCode) (source : σ) (queue : EventQueue) :
    master.beginIfDue now take source queue = ⟨master, source, queue, .ok none⟩ := by
  rw [beginIfDue, if_neg h]

end

/-- A poll is only due between polls, so beginning one never cuts another one
    short. -/
theorem phase_of_isDue {master : Master} {now : Millis} (h : master.isDue now = true) :
    master.phase = .idle := by
  unfold isDue at h
  -- In every other phase a poll is under way, and none is due.
  cases hphase : master.phase with
  | idle => rfl
  | sending kind => rw [hphase] at h; exact absurd h Bool.false_ne_true
  | awaiting kind => rw [hphase] at h; exact absurd h Bool.false_ne_true
  | completed kind => rw [hphase] at h; exact absurd h Bool.false_ne_true
  | timedOut kind => rw [hphase] at h; exact absurd h Bool.false_ne_true

/-- To begin a poll is the occurrence with its kind and its action. Its note is
    the one that the reference makes of the mark. -/
theorem begun_takes {master : Master} {now : Millis} (h : master.isDue now = true)
    (action : ActionCode) :
    Takes master [.begun master.nextKind action]
      fun queue => (master.begun now, queue.push (.sent master.nextKind action)) := by
  have hidle : master.phase = .idle := phase_of_isDue h
  have hflight : master.flight = .idle := by rw [flight, hidle]
  have hphase : (master.begun now).phase = .sending master.nextKind := by
    rw [begun, move, hidle]
    rfl
  have hflight' : (master.begun now).flight = .sending master.nextKind := by rw [flight, hphase]
  have hmarks : master.marks [.begun master.nextKind action]
      = [.begun master.nextKind action] := by rw [marks, followed_begun]
  refine ⟨master.begun now, [.sent master.nextKind action], fun _ => rfl, rfl, ?_, ?_, ?_, ?_, ?_⟩
  · rw [Settled, hphase, hflight']
    rfl
  · rw [followed_begun, hflight']
  · rw [hmarks, hflight, hflight']
    exact .begin (.done _)
  · rw [hmarks]
    rfl
  · rw [hmarks]
    rfl

end Master

end DoorBus

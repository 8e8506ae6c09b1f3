import DoorBus.Master.Basic

/-!
# Outcomes of a Poll

How a poll can end, and what each end does.

The bus master deals with the end of a poll in several places: when an answer
comes, when an exception comes, when an answer does not fit, when the time is
over, and when the request could not be sent. Each place moves the phase, the
record and the link by itself and notes what it does. This module names the
five ends and says, for each of them, what becomes of the record and which
notes are written. The places are then shown to do just that.

A queue of limited room may lose notes. So the notes of an operation are given
as a list, and what the operation does to a queue is to push that list, which
is the same whether the queue is full or not.

## Main definitions

* `EventQueue.pushAll`: More notes, one after the other.
* `Outcome`: How a poll ends.
* `PollKind.answer?`: The outcome that a frame brings, while it is awaited.
* `DriveRecord.after`: The record after an outcome.
* `Outcome.notes`: The notes of an outcome.
* `DriveRecord.overhear`, `DriveRecord.remarks`: Any other frame.

## Theorems

* `pushAll_append`: Notes can be pushed in parts.
* `pushAll_of_limit`: A queue keeps the first notes it has room for.
* `fits_of_answer`: An answer has the kind and the registers asked for.
* `resolveFailure_eq`, `complete_eq`: The two ways to deal with an outcome.
* `onFrame_of_answer`: A frame that answers the poll under way.
* `onFrame_of_not_answer`: A frame that does not.
* `onFrame_cases`: All that a frame can do.
-/

namespace DoorBus

/-! ## Queues -/

namespace EventQueue

/-- More notes, one after the other, as far as there is room. -/
def pushAll (queue : EventQueue) (events : List Event) : EventQueue :=
  events.foldl push queue

theorem pushAll_nil (queue : EventQueue) : queue.pushAll [] = queue := rfl

theorem pushAll_append (queue : EventQueue) (xs ys : List Event) :
    queue.pushAll (xs ++ ys) = (queue.pushAll xs).pushAll ys :=
  List.foldl_append

theorem pushAll_unlimited (events more : List Event) :
    pushAll ⟨none, events⟩ more = ⟨none, events ++ more⟩ := by
  induction more generalizing events with
  | nil => rw [pushAll_nil, List.append_nil]
  | cons event more ih =>
      have hpush : pushAll ⟨none, events⟩ (event :: more)
          = pushAll ⟨none, events ++ [event]⟩ more := rfl
      rw [hpush, ih, List.append_assoc, List.singleton_append]

/-- A queue that never fills shows the notes of an operation. It is the one that
    a proof looks at when it asks what is noted. -/
theorem pushAll_unbounded (events : List Event) :
    (unbounded.pushAll events).events = events := by
  rw [unbounded, pushAll_unlimited, List.nil_append]

/-- A queue keeps the first notes that it has room for. -/
theorem pushAll_of_limit {limit : Nat} {events : List Event} (h : events.length ≤ limit)
    (more : List Event) :
    pushAll ⟨some limit, events⟩ more = ⟨some limit, (events ++ more).take limit⟩ := by
  induction more generalizing events with
  | nil => rw [pushAll_nil, List.append_nil, List.take_of_length_le h]
  | cons event more ih =>
      have hpush : pushAll ⟨some limit, events⟩ (event :: more)
          = (push ⟨some limit, events⟩ event).pushAll more := rfl
      rw [hpush, push, hasRoom]
      by_cases hroom : events.length < limit
      · have hle : (events ++ [event]).length ≤ limit := by
          rw [List.length_append, List.length_singleton]
          omega
        rw [if_pos (decide_eq_true hroom), ih hle, List.append_assoc, List.singleton_append]
      · -- A full queue stays as it is, whatever comes.
        have hfull : events.length = limit := by omega
        rw [if_neg (by rw [decide_eq_true_eq]; exact hroom), ih h, ← hfull, List.take_left,
          List.take_left]

/-- The queue of a bridge is emptied before each step, so it shows the first
    ones of the step. -/
theorem pushAll_empty (events : List Event) :
    (empty.pushAll events).events = events.take capacity := by
  rw [empty, pushAll_of_limit (Nat.zero_le capacity), List.nil_append]

end EventQueue

/-- The notes of a change of the link. -/
def LinkChange.notes : LinkChange → List Event
  | unchanged => []
  | connected => [.connected]
  | disconnected => [.disconnected]

/-! ## Outcomes -/

/-- How a poll ends. -/
inductive Outcome
  /-- The answer came, and fits. -/
  | answered (response : Response)
  /-- The drive answered with an exception. -/
  | excepted (code : UInt8)
  /-- An answer came that does not fit. -/
  | rejected (fault : BusFault)
  /-- The answer did not come in time. -/
  | overdue
  /-- The request could not be sent. -/
  | unsent
  deriving DecidableEq

namespace Outcome

/-- Whether the poll was answered. -/
def isSuccess : Outcome → Bool
  | answered _ | excepted _ => true
  | rejected _ | overdue | unsent => false

end Outcome

/-- The outcome that a frame brings to a poll that awaits its answer. -/
def PollKind.answer? (kind : PollKind) (frame : Frame) : Option Outcome :=
  match Incoming.ofFrame frame with
  | .ok (.response answer) =>
    match Response.ofFrame answer kind with
    | .ok response => some (.answered response)
    | .error error => some (.rejected (.ofMessageError error))
  | .ok (.exception code) => some (.excepted code)
  | .ok (.broadcast _) | .error _ => none

/-- The words of identification in an answer. -/
def Response.words (response : Response) : Identification :=
  Vector.ofFn fun i => response.identification[i]?.getD 0

/-- What an answer notes beside its coming. -/
def Response.news (response : Response) : List Event :=
  match response.kind with
  | .busScan => [.identified response.words]
  | .commandPoll => (response.driveRequest?.map Event.driveRequest).toList

/-- The link after an outcome. -/
def Link.after (link : Link) (outcome : Outcome) : Link × LinkChange :=
  if outcome.isSuccess then link.succeed else link.fail

namespace DriveRecord

/-- What an answer tells about the drive. -/
def learn (record : DriveRecord) (response : Response) : DriveRecord :=
  match response.kind with
  | .busScan => record.identify response.words
  | .commandPoll => record

/-- The record after an outcome. -/
def after (record : DriveRecord) (outcome : Outcome) : DriveRecord :=
  let record := { record with link := (record.link.after outcome).1 }
  match outcome with
  | .answered response => (record.setFault false).learn response
  | .excepted _ => record.setFault true
  | .rejected _ | .overdue | .unsent => record

/-- The record after a frame that is no outcome. -/
def overhear (record : DriveRecord) (frame : Frame) : DriveRecord :=
  match Incoming.ofFrame frame with
  | .ok (.broadcast frame) =>
    match DoorStatus.ofFrame frame with
    | .ok status => (record.hear status).1
    | .error _ => record
  | .ok (.response _) | .ok (.exception _) | .error _ => record

/-- The notes of a frame that is no outcome. -/
def remarks (record : DriveRecord) (frame : Frame) : List Event :=
  match Incoming.ofFrame frame with
  | .ok (.broadcast frame) =>
    match DoorStatus.ofFrame frame with
    | .ok status => if (record.hear status).2 then [.statusUpdated status] else []
    | .error error => [.statusRejected (.ofMessageError error)]
  | .ok (.response _) | .ok (.exception _) => [.lateResponse]
  | .error error => [.frameDropped (.ofMessageError error)]

end DriveRecord

/-- The notes of an outcome, for a poll of a given kind and what becomes of
    the link. -/
def Outcome.notes (kind : PollKind) (change : LinkChange) : Outcome → List Event
  | answered response => change.notes ++ response.news ++ [.completed kind]
  | excepted code => .driveFault code :: change.notes
  | rejected fault => .responseRejected fault :: .timedOut kind :: change.notes
  | overdue | unsent => .timedOut kind :: change.notes

/-- An answer is of the kind that was asked for, and has as many registers. -/
theorem fits_of_ofFrame {frame : Frame} {kind : PollKind} {response : Response}
    (h : Response.ofFrame frame kind = .ok response) :
    response.kind = kind ∧ response.registers.length = kind.readQuantity.toNat := by
  unfold Response.ofFrame at h
  by_cases haddress : frame.address ≠ Address.drive ∨ frame.function ≠ Function.readWriteBlock
  · rw [if_pos haddress] at h
    exact absurd h (by simp only [reduceCtorEq, not_false_eq_true])
  rw [if_neg haddress] at h
  cases hpayload : frame.payload with
  | nil =>
      rw [hpayload] at h
      exact absurd h (by simp only [reduceCtorEq, not_false_eq_true])
  | cons count data =>
      rw [hpayload] at h
      simp only [] at h
      by_cases hfits : count.toNat = kind.readQuantity.toNat * 2 ∧
          data.length = kind.readQuantity.toNat * 2
      · rw [dif_pos hfits, Except.ok.injEq] at h
        rw [← h]
        refine ⟨rfl, ?_⟩
        rw [Word.length_ofBytes, hfits.2]
        omega
      · rw [dif_neg hfits] at h
        exact absurd h (by simp only [reduceCtorEq, not_false_eq_true])

/-- An answer is accepted for a poll only if it has the kind and the number of
    registers that were asked for. -/
theorem fits_of_answer {kind : PollKind} {frame : Frame} {response : Response}
    (h : kind.answer? frame = some (.answered response)) :
    response.kind = kind ∧ response.registers.length = kind.readQuantity.toNat := by
  unfold PollKind.answer? at h
  cases hincoming : Incoming.ofFrame frame with
  | error error => simp only [hincoming, reduceCtorEq] at h
  | ok incoming =>
      rw [hincoming] at h
      cases incoming with
      | broadcast inner => simp only [reduceCtorEq] at h
      | exception code => simp only [Option.some.injEq, reduceCtorEq] at h
      | response answer =>
          simp only [] at h
          cases hresponse : Response.ofFrame answer kind with
          | ok fitting =>
              rw [hresponse, Option.some.injEq, Outcome.answered.injEq] at h
              rw [← h]
              exact fits_of_ofFrame hresponse
          | error error =>
              simp only [hresponse, Option.some.injEq, reduceCtorEq] at h

theorem Phase.isAwaiting_iff {phase : Phase} :
    phase.isAwaiting = true ↔ ∃ kind, phase = .awaiting kind := by
  constructor
  · intro h
    cases phase with
    | awaiting kind => exact ⟨kind, rfl⟩
    | idle => exact absurd h Bool.false_ne_true
    | sending kind => exact absurd h Bool.false_ne_true
    | completed kind => exact absurd h Bool.false_ne_true
    | timedOut kind => exact absurd h Bool.false_ne_true
  · rintro ⟨kind, rfl⟩
    rfl

namespace Master

open EventQueue (pushAll_append)

/-! ## What the master does with an outcome -/

/-- Where the link cannot be lost, this branch pushes all that its change says. -/
theorem push_connected {change : LinkChange} (h : change ≠ .disconnected)
    (queue : EventQueue) :
    (if change = .connected then queue.push .connected else queue)
      = queue.pushAll change.notes := by
  cases change with
  | unchanged => rfl
  | connected => rfl
  | disconnected => exact absurd rfl h

/-- Where the link cannot come up, this branch pushes all that its change says. -/
theorem push_disconnected {change : LinkChange} (h : change ≠ .connected)
    (queue : EventQueue) :
    (if change = .disconnected then queue.push .disconnected else queue)
      = queue.pushAll change.notes := by
  cases change with
  | unchanged => rfl
  | connected => exact absurd rfl h
  | disconnected => rfl

theorem succeed_ne_disconnected (link : Link) : link.succeed.2 ≠ .disconnected := by
  unfold Link.succeed
  by_cases hup : link.isUp = true
  · simp only [hup, if_true, ne_eq, reduceCtorEq, not_false_eq_true]
  · simp only [hup, if_false, ne_eq, reduceCtorEq, not_false_eq_true]

theorem fail_ne_connected (link : Link) : link.fail.2 ≠ .connected := by
  unfold Link.fail
  simp only []
  generalize (if link.failures = 255 then 255 else link.failures + 1) = failures
  by_cases hdown : link.isUp = true ∧ link.threshold ≤ failures
  · rw [if_pos hdown]
    exact LinkChange.noConfusion
  · rw [if_neg hdown]
    exact LinkChange.noConfusion

/-- A success as one update of the record and one run of notes. What follows has
    the same form, so that an outcome is put together from it. -/
theorem recordSuccess_eq (master : Master) (queue : EventQueue) :
    master.recordSuccess queue =
      ({ master with record := { master.record with link := master.record.link.succeed.1 } },
        queue.pushAll master.record.link.succeed.2.notes) := by
  rw [recordSuccess, ← push_connected (succeed_ne_disconnected _)]
  rfl

theorem resolveFailure_eq (master : Master) (queue : EventQueue) :
    master.resolveFailure queue =
      ({ master with
          phase := master.phase.next .settled
          record := { master.record with link := master.record.link.fail.1 } },
        queue.pushAll ((master.phase.kind?.map Event.timedOut).toList ++
          master.record.link.fail.2.notes)) := by
  rw [resolveFailure, pushAll_append, ← push_disconnected (fail_ne_connected _)]
  -- Without a poll there is nobody to note the timeout of.
  cases master.phase.kind? with
  | none => rfl
  | some kind => rfl

/-- An answer is learned from in the same form. -/
theorem learn_eq (master : Master) (response : Response) (queue : EventQueue) :
    master.learn response queue =
      ({ master with record := master.record.learn response }, queue.pushAll response.news) := by
  unfold learn DriveRecord.learn Response.news
  cases response.kind with
  | busScan => rfl
  | commandPoll =>
      cases response.driveRequest? with
      | none => rfl
      | some code => rfl

theorem complete_eq (master : Master) (response : Response) (queue : EventQueue) :
    master.complete response queue =
      ({ master with
          phase := (master.phase.next .responseReceived).next .settled
          record := master.record.after (.answered response) },
        queue.pushAll ((Outcome.answered response).notes response.kind
          master.record.link.succeed.2)) := by
  have hnotes : (Outcome.answered response).notes response.kind master.record.link.succeed.2
      = master.record.link.succeed.2.notes ++ response.news ++ [.completed response.kind] := rfl
  -- The three parts of the notes come from the three operations in `complete`.
  rw [hnotes, pushAll_append, pushAll_append, complete]
  simp only [recordSuccess_eq, learn_eq]
  rfl

/-! ## Frames -/

/-- An exception ends the poll that is awaited, whatever its code. -/
theorem onException_eq {master : Master} {kind : PollKind} (h : master.phase = .awaiting kind)
    (code : UInt8) (queue : EventQueue) :
    master.onException code queue =
      ({ master with phase := .idle, record := master.record.after (.excepted code) },
        queue.pushAll ((Outcome.excepted code).notes kind master.record.link.succeed.2)) := by
  rw [onException, h]
  simp only [Phase.isAwaiting, if_true, recordSuccess_eq, move]
  rfl

/-- A frame that brings an outcome ends the poll under way with it. -/
theorem onFrame_of_answer {master : Master} {kind : PollKind} {frame : Frame} {outcome : Outcome}
    (hphase : master.phase = .awaiting kind) (h : kind.answer? frame = some outcome)
    (queue : EventQueue) :
    master.onFrame frame queue =
      ({ master with phase := .idle, record := master.record.after outcome },
        queue.pushAll (outcome.notes kind (master.record.link.after outcome).2)) := by
  unfold PollKind.answer? at h
  unfold onFrame
  cases hincoming : Incoming.ofFrame frame with
  | error error => simp only [hincoming, reduceCtorEq] at h
  | ok incoming =>
      rw [hincoming] at h
      cases incoming with
      | broadcast inner => simp only [reduceCtorEq] at h
      | exception code =>
          simp only [Option.some.injEq] at h
          rw [← h]
          exact onException_eq hphase code queue
      | response answer =>
          simp only [] at h
          simp only [onResponse, hphase]
          -- An answer that does not fit is dealt with like one that never came, and
          -- noted as what it is.
          cases hresponse : Response.ofFrame answer kind with
          | ok response =>
              rw [hresponse] at h
              simp only [Option.some.injEq] at h
              rw [← h]
              simp only [complete_eq, hphase, (fits_of_ofFrame hresponse).1]
              rfl
          | error error =>
              rw [hresponse] at h
              simp only [Option.some.injEq] at h
              rw [← h]
              simp only [resolveFailure_eq, move, hphase]
              rfl

/-- An answer that no poll awaits is late. It changes nothing and is noted. -/
theorem onResponse_of_not_awaiting {master : Master}
    (h : ∀ kind, master.phase ≠ .awaiting kind) (answer : Frame) (queue : EventQueue) :
    master.onResponse answer queue = (master, queue.push .lateResponse) := by
  unfold onResponse
  split
  · next kind hphase => exact absurd hphase (h kind)
  · rfl

theorem onException_of_not_awaiting {master : Master}
    (h : ∀ kind, master.phase ≠ .awaiting kind) (code : UInt8) (queue : EventQueue) :
    master.onException code queue = (master, queue.push .lateResponse) := by
  have hawaiting : ¬master.phase.isAwaiting = true := by
    rw [Phase.isAwaiting_iff, not_exists]
    exact h
  rw [onException, if_neg hawaiting]

/-- A frame that brings no outcome leaves the phase and the link alone. -/
theorem onFrame_of_not_answer {master : Master} {frame : Frame}
    (h : ∀ kind, master.phase = .awaiting kind → kind.answer? frame = none)
    (queue : EventQueue) :
    master.onFrame frame queue =
      ({ master with record := master.record.overhear frame },
        queue.pushAll (master.record.remarks frame)) := by
  unfold onFrame DriveRecord.overhear DriveRecord.remarks
  unfold PollKind.answer? at h
  -- The cases follow how the frame is sorted, since all definitions split on that.
  cases hincoming : Incoming.ofFrame frame with
  | error error => rfl
  | ok incoming =>
      rw [hincoming] at h
      cases incoming with
      | broadcast inner =>
          simp only [onBroadcast]
          cases DoorStatus.ofFrame inner with
          | error error => rfl
          | ok status =>
              simp only []
              cases (master.record.hear status).2 with
              | true => rfl
              | false => rfl
      | response answer =>
          -- Every answer is an outcome while one is awaited.
          refine onResponse_of_not_awaiting (fun kind hphase => ?_) answer queue
          have hanswer := h kind hphase
          simp only [] at hanswer
          cases hresponse : Response.ofFrame answer kind with
          | ok response => simp only [hresponse, reduceCtorEq] at hanswer
          | error error => simp only [hresponse, reduceCtorEq] at hanswer
      | exception code =>
          -- So is every exception.
          refine onException_of_not_awaiting (fun kind hphase => ?_) code queue
          have hanswer := h kind hphase
          simp only [reduceCtorEq] at hanswer

/-- All that a frame can do: it ends the poll under way, or leaves it alone. -/
theorem onFrame_cases (master : Master) (frame : Frame) :
    (∃ kind outcome, master.phase = .awaiting kind ∧ kind.answer? frame = some outcome ∧
      ∀ queue, master.onFrame frame queue =
        ({ master with phase := .idle, record := master.record.after outcome },
          queue.pushAll (outcome.notes kind (master.record.link.after outcome).2))) ∨
    ((∀ kind, master.phase = .awaiting kind → kind.answer? frame = none) ∧
      ∀ queue, master.onFrame frame queue =
        ({ master with record := master.record.overhear frame },
          queue.pushAll (master.record.remarks frame))) := by
  by_cases hanswer : ∃ kind outcome, master.phase = .awaiting kind ∧
      kind.answer? frame = some outcome
  · rcases hanswer with ⟨kind, outcome, hphase, h⟩
    exact .inl ⟨kind, outcome, hphase, h, onFrame_of_answer hphase h⟩
  -- Otherwise no poll that awaits its answer gets an outcome from the frame.
  · have hnone : ∀ kind, master.phase = .awaiting kind → kind.answer? frame = none := by
      intro kind hphase
      cases h : kind.answer? frame with
      | none => rfl
      | some outcome => exact absurd ⟨kind, outcome, hphase, h⟩ hanswer
    exact .inr ⟨hnone, onFrame_of_not_answer hnone⟩

end Master

end DoorBus

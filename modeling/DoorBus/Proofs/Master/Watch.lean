import DoorBus.Proofs.Master.Course

/-!
# Every Poll Has One Outcome

A bus master is called in any order, at any times and with any bytes. Only one
thing is asked of the caller: after a request was handed out, it has to tell
once how sending it went, and not otherwise.

A `Watch` stands beside such a run. It keeps what has occurred and all notes,
as a queue that never fills would have them. Two facts are kept up by every
call. The run keeps to the reference, and a report on a request is owed
exactly while the master is in the sending phase. So the marks of the
reference take turns, and phase, link and notes are what the marks say.

## Main definitions

* `Master.Call`: What can be done with a bus master.
* `Master.call`, `Master.occurrences`: What it does, and what it stands for.
* `Watch`: A bus master with the course of its run.
* `Watch.reference`: What the reference makes of the run.
* `Watched`: A run of a new master under a caller who reports.

## Theorems

* `call_takes`: A call keeps to the reference.
* `isSending_follow`: What comes in does not concern sending.
* `inStep_call`, `inStep_of_watched`: The two facts hold throughout.
* `hear_of_no_answer`: Bytes without an answer move nothing.
* `watched_resolves`: Polls have one outcome, and the link follows from it.
-/

namespace DoorBus

/-- What can be done with a bus master. -/
inductive Master.Call
  /-- Begin a poll if it is time, with an action to go with it. -/
  | poll (now : Millis) (action : ActionCode)
  /-- The request has been sent. -/
  | sent (now : Millis)
  /-- The request could not be sent. -/
  | unsent
  /-- Bytes arrived. -/
  | hear (now : Millis) (bytes : List UInt8)
  /-- Time has passed. -/
  | check (now : Millis)

namespace Master

/-- A call, with a queue for the notes. -/
def call (master : Master) : Call → EventQueue → Master × EventQueue
  | .poll now action, queue =>
    let begun := master.beginIfDue now (fun _ => ((), action)) () queue
    (begun.master, begun.queue)
  | .sent now, queue => (master.transmitted now, queue)
  | .unsent, queue => master.transmitFailed queue
  | .hear now bytes, queue => master.hear now bytes queue
  | .check now, queue => master.checkTimeouts now queue

/-- The master after some calls. -/
def callAll (master : Master) (calls : List Call) : Master :=
  calls.foldl (fun master call => (master.call call .unbounded).1) master

theorem callAll_append (master : Master) (xs ys : List Call) :
    master.callAll (xs ++ ys) = (master.callAll xs).callAll ys :=
  List.foldl_append

/-- The request that a call hands out. -/
def request? (master : Master) : Call → Option (List UInt8)
  | .poll now action =>
    match (master.beginIfDue now (fun _ => ((), action)) () .empty).request with
    | .ok request => request
    | .error _ => none
  | .sent _ | .unsent | .hear _ _ | .check _ => none

/-- What a call stands for. -/
def occurrences (master : Master) : Call → List Occurrence
  | .poll now action =>
    if (master.request? (.poll now action)).isSome then [.begun master.nextKind action] else []
  | .sent now => [.sent now]
  | .unsent => [.unsent]
  | .hear now bytes => ((master.refreshed now).found bytes).map .heard
  | .check now => [.looked now]

/-- Whether a call reports on a request. -/
def Call.isReport : Call → Bool
  | sent _ | unsent => true
  | poll _ _ | hear _ _ | check _ => false

/-- Whether a call only takes something in. -/
def Call.isInbound : Call → Bool
  | hear _ _ | check _ => true
  | poll _ _ | sent _ | unsent => false

/-- When it is time, a poll hands out the request for its action. -/
theorem poll_of_due {master : Master} {now : Millis} (h : master.isDue now = true)
    (action : ActionCode) :
    master.request? (.poll now action) = some (Request.mk master.nextKind action).bytes ∧
      ∀ queue, master.call (.poll now action) queue
        = (master.begun now, queue.push (.sent master.nextKind action)) := by
  have hbegin := beginIfDue_of_due h (fun _ : Unit => ((), action)) ()
  refine ⟨?_, fun queue => ?_⟩
  · simp only [request?, hbegin]
  · rw [call, hbegin]

/-- Before it is time, a caller who asks gets no request and changes nothing. -/
theorem poll_of_not_due {master : Master} {now : Millis} (h : ¬master.isDue now = true)
    (action : ActionCode) :
    master.request? (.poll now action) = none ∧
      ∀ queue, master.call (.poll now action) queue = (master, queue) := by
  refine ⟨?_, fun queue => ?_⟩
  · simp only [request?, beginIfDue_of_not_due h]
  · rw [call, beginIfDue_of_not_due h]

/-- A call keeps to the reference, provided that a report comes while the
    request is being sent. -/
theorem call_takes {master : Master} (hsettled : master.Settled) (call : Call)
    (hreport : call.isReport = true → ∃ kind, master.phase = .sending kind) :
    Takes master (master.occurrences call) (master.call call) := by
  cases call with
  | poll now action =>
      by_cases hdue : master.isDue now = true
      · rcases poll_of_due hdue action with ⟨hrequest, hcall⟩
        rw [occurrences, hrequest, funext hcall]
        exact begun_takes hdue action
      · rcases poll_of_not_due hdue action with ⟨hnone, hcall⟩
        rw [occurrences, hnone, funext hcall]
        exact takes_nothing hsettled
  | sent now =>
      rcases hreport rfl with ⟨kind, hphase⟩
      exact transmitted_takes hphase now
  | unsent =>
      rcases hreport rfl with ⟨kind, hphase⟩
      exact transmitFailed_takes hphase
  | hear now bytes => exact hear_takes hsettled now bytes
  | check now => exact checkTimeouts_takes hsettled now

end Master

/-! ## Reports that are owed -/

namespace Flight

/-- Whether the request is being sent. -/
def isSending : Flight → Bool
  | sending _ => true
  | idle | awaiting _ _ => false

/-- A frame neither starts nor ends the sending of a request. -/
theorem isSending_heard (timeout : Millis) (flight : Flight) (frame : Frame) :
    (flight.step timeout (.heard frame)).1.isSending = flight.isSending := by
  cases flight with
  | idle => rfl
  | sending kind => rfl
  | awaiting kind since =>
      rw [step]
      cases kind.answer? frame <;> rfl

/-- A look at the clock ends no sending. The response time starts with the
    report. -/
theorem isSending_looked (timeout : Millis) (flight : Flight) (now : Millis) :
    (flight.step timeout (.looked now)).1.isSending = flight.isSending := by
  cases flight with
  | idle => rfl
  | sending kind => rfl
  | awaiting kind since =>
      rw [step]
      by_cases hlate : timeout ≤ Millis.elapsed since now
      · rw [if_pos hlate]
        rfl
      · rw [if_neg hlate]

/-- Frames that come do not concern sending. -/
theorem isSending_follow (timeout : Millis) (flight : Flight) (frames : List Frame) :
    (flight.follow timeout (frames.map .heard)).1.isSending = flight.isSending := by
  induction frames generalizing flight with
  | nil => rfl
  | cons frame frames ih =>
      rw [List.map_cons, follow_cons, ih, isSending_heard]

/-- Frames that are no answers leave a flight as it is. -/
theorem follow_of_no_answer {timeout : Millis} {flight : Flight} {frames : List Frame}
    (h : ∀ kind since, flight = .awaiting kind since →
      ∀ frame ∈ frames, kind.answer? frame = none) :
    flight.follow timeout (frames.map .heard) = (flight, []) := by
  induction frames with
  | nil => rfl
  | cons frame frames ih =>
      have hfirst : flight.step timeout (.heard frame) = (flight, []) := by
        cases flight with
        | idle => rfl
        | sending kind => rfl
        | awaiting kind since =>
            simp only [step, h kind since rfl frame List.mem_cons_self]
      have hrest := ih fun kind since hflight other hother =>
        h kind since hflight other (List.mem_cons_of_mem frame hother)
      rw [List.map_cons, follow_cons, hfirst, hrest, List.append_nil]

end Flight

namespace Master

theorem phase_of_isSending {master : Master} (hsettled : master.Settled)
    (h : master.flight.isSending = true) : ∃ kind, master.phase = .sending kind := by
  cases hflight : master.flight with
  | idle => rw [hflight] at h; exact absurd h Bool.false_ne_true
  | awaiting kind since => rw [hflight] at h; exact absurd h Bool.false_ne_true
  | sending kind => exact ⟨kind, by rw [hsettled, hflight]; rfl⟩

/-- Sending starts when a request is handed out, and ends with the report. -/
theorem isSending_call {master after : Master} {call : Call} {notes : List Event}
    (hreport : call.isReport = true → ∃ kind, master.phase = .sending kind)
    (h : Course master (master.occurrences call) after notes) :
    after.flight.isSending
      = (!call.isReport && (master.flight.isSending || (master.request? call).isSome)) := by
  rw [h.flight_eq]
  cases call with
  | poll now action =>
      rw [occurrences]
      by_cases hout : (master.request? (.poll now action)).isSome = true
      · rw [if_pos hout, followed_begun, hout, Bool.or_true]
        rfl
      · rw [if_neg hout, Bool.eq_false_iff.mpr hout, Bool.or_false]
        rfl
  | sent now =>
      rcases hreport rfl with ⟨kind, hphase⟩
      rw [occurrences, followed_sent hphase]
      rfl
  | unsent =>
      rcases hreport rfl with ⟨kind, hphase⟩
      rw [occurrences, followed_unsent hphase]
      rfl
  | hear now bytes =>
      rw [occurrences, followed, Flight.isSending_follow, request?, Option.isSome_none,
        Bool.or_false]
      rfl
  | check now =>
      rw [occurrences, followed_singleton, Flight.isSending_looked, request?,
        Option.isSome_none, Bool.or_false]
      rfl

end Master

/-! ## Runs -/

/-- A bus master with the course of its run. -/
structure Watch where
  /-- The bus master. -/
  master : Master
  /-- Whether the caller has to tell how sending a request went. -/
  owes : Bool := false
  /-- What has occurred. -/
  past : List Occurrence := []
  /-- What was noted. -/
  notes : List Event := []

namespace Watch

open Master (Call Course Takes)

/-- The beginning of a watch on a bus master. -/
def on (master : Master) : Watch where
  master := master
  owes := master.flight.isSending

/-- A call. -/
def call (watch : Watch) (call : Call) : Watch where
  master := (watch.master.call call .unbounded).1
  owes := !call.isReport && (watch.owes || (watch.master.request? call).isSome)
  past := watch.past ++ watch.master.occurrences call
  notes := watch.notes ++ (watch.master.call call .unbounded).2.events

/-- Calls, one after the other. -/
def callAll (watch : Watch) (calls : List Call) : Watch :=
  calls.foldl Watch.call watch

theorem callAll_cons (watch : Watch) (call : Call) (calls : List Call) :
    watch.callAll (call :: calls) = (watch.call call).callAll calls := rfl

theorem callAll_append (watch : Watch) (xs ys : List Call) :
    watch.callAll (xs ++ ys) = (watch.callAll xs).callAll ys :=
  List.foldl_append

/-- The master after some calls does not depend on the watch. -/
theorem master_callAll (watch : Watch) (calls : List Call) :
    (watch.callAll calls).master = watch.master.callAll calls := by
  induction calls generalizing watch with
  | nil => rfl
  | cons call calls ih => exact ih (watch.call call)

/-- The poll in flight and the marks, as the reference has them. -/
def reference (timing : Timing) (watch : Watch) : Flight × List Mark :=
  Flight.idle.follow timing.responseTimeout watch.past

/-- Whether the caller may do this: a report only when it is owed. -/
def Permits (watch : Watch) (call : Call) : Prop :=
  call.isReport = true → watch.owes = true

instance (watch : Watch) (call : Call) : Decidable (watch.Permits call) :=
  inferInstanceAs (Decidable (_ → _))

/-- Whether the caller may do all this. -/
def PermitsAll (watch : Watch) : List Call → Prop
  | [] => True
  | call :: calls => watch.Permits call ∧ (watch.call call).PermitsAll calls

/-- What the caller may do next depends on what was done before. -/
theorem permitsAll_append {watch : Watch} {xs ys : List Call} (hxs : watch.PermitsAll xs)
    (hys : (watch.callAll xs).PermitsAll ys) : watch.PermitsAll (xs ++ ys) := by
  induction xs generalizing watch with
  | nil => exact hys
  | cons call xs ih => exact ⟨hxs.1, ih hxs.2 hys⟩

/-- The run has kept to the reference since some state, and a report is owed
    exactly while a request is being sent. -/
structure InStep (origin : Master) (watch : Watch) : Prop where
  course : Course origin watch.past watch.master watch.notes
  owes_eq : watch.owes = watch.master.flight.isSending

/-- A watch that begins where no outcome is left is in step with its own
    beginning. -/
theorem inStep_on {master : Master} (hsettled : master.Settled) : (on master).InStep master where
  course := Master.course_of_unmarked hsettled rfl rfl rfl rfl rfl rfl
  owes_eq := rfl

variable {origin : Master} {watch : Watch}

/-- A report that the caller owes finds a request that is being sent. -/
theorem sending_of_permits (h : watch.InStep origin) {call : Call}
    (hpermits : watch.Permits call) (hreport : call.isReport = true) :
    ∃ kind, watch.master.phase = .sending kind :=
  Master.phase_of_isSending h.course.settled (h.owes_eq ▸ hpermits hreport)

/-- A permitted call treats every queue alike. What it notes is what the watch
    takes down. -/
theorem call_does (h : watch.InStep origin) {call : Call} (hpermits : watch.Permits call) :
    ∃ notes, (watch.call call).notes = watch.notes ++ notes ∧
      (∀ queue, watch.master.call call queue = ((watch.call call).master, queue.pushAll notes)) ∧
      Course watch.master (watch.master.occurrences call) (watch.call call).master notes := by
  rcases Master.call_takes h.course.settled call (sending_of_permits h hpermits) with
    ⟨after, notes, hdoes, hcourse⟩
  have hmaster : (watch.call call).master = after := by
    rw [Watch.call, hdoes]
  refine ⟨notes, ?_, fun queue => ?_, ?_⟩
  · rw [Watch.call, hdoes, EventQueue.pushAll_unbounded]
  · rw [hdoes, hmaster]
  · rwa [hmaster]

/-- A queue that holds the notes of a run goes on to do so. -/
theorem call_pushAll (h : watch.InStep origin) {call : Call} (hpermits : watch.Permits call)
    (queue : EventQueue) :
    watch.master.call call (queue.pushAll watch.notes)
      = ((watch.call call).master, queue.pushAll (watch.call call).notes) := by
  rcases call_does h hpermits with ⟨notes, hnotes, hdoes, _⟩
  rw [hdoes, hnotes, EventQueue.pushAll_append]

theorem inStep_call (h : watch.InStep origin) {call : Call} (hpermits : watch.Permits call) :
    (watch.call call).InStep origin := by
  rcases call_does h hpermits with ⟨notes, hnotes, _, hcourse⟩
  refine ⟨?_, ?_⟩
  -- The course of the call goes behind the one there is.
  · rw [hnotes]
    exact Master.course_append h.course hcourse
  · rw [Master.isSending_call (sending_of_permits h hpermits) hcourse, ← h.owes_eq]
    rfl

theorem inStep_callAll {calls : List Call} (h : watch.InStep origin)
    (hpermits : watch.PermitsAll calls) : (watch.callAll calls).InStep origin := by
  induction calls generalizing watch with
  | nil => exact h
  | cons call calls ih => exact ih (inStep_call h hpermits.1) hpermits.2

/-- A run of a new master, whose caller reports on each request once. -/
inductive Watched (timing : Timing) : Watch → Prop
  /-- Nothing has been done yet. -/
  | start : Watched timing (on (.new timing))
  /-- One more call. -/
  | call {watch : Watch} (call : Call) :
    Watched timing watch → watch.Permits call → Watched timing (watch.call call)

/-- Every run from the start is in step with it, by induction over the calls.
    What holds of the reference then holds of the run. -/
theorem inStep_of_watched {timing : Timing} {watch : Watch} (h : Watched timing watch) :
    watch.InStep (.new timing) := by
  induction h with
  | start => exact inStep_on (Master.settled_of_idle rfl)
  | call call _ hpermits ih => exact inStep_call ih hpermits

/-- A run may be taken further by calls that the caller may make. -/
theorem watched_callAll {timing : Timing} {calls : List Call} (h : Watched timing watch)
    (hpermits : watch.PermitsAll calls) : Watched timing (watch.callAll calls) := by
  induction calls generalizing watch with
  | nil => exact h
  | cons call calls ih => exact ih (.call call h hpermits.1) hpermits.2

/-- Bytes without an answer to the poll in flight move neither the phase nor
    the link. -/
theorem hear_of_no_answer (h : watch.InStep origin) {now : Millis} {bytes : List UInt8}
    (hnone : ∀ kind, watch.master.phase = .awaiting kind →
      ∀ frame ∈ (watch.master.refreshed now).found bytes, kind.answer? frame = none) :
    (watch.call (.hear now bytes)).master.phase = watch.master.phase ∧
      (watch.call (.hear now bytes)).master.record.link = watch.master.record.link := by
  have hpermits : watch.Permits (.hear now bytes) := fun hreport =>
    absurd hreport Bool.false_ne_true
  rcases call_does h hpermits with ⟨notes, _, _, hcourse⟩
  -- The reference makes nothing of the frames, so the course is one of standing still.
  have hfollowed : watch.master.followed (watch.master.occurrences (.hear now bytes))
      = (watch.master.flight, []) :=
    Flight.follow_of_no_answer fun kind since hflight =>
      hnone kind (by rw [h.course.settled, hflight]; rfl)
  have hmarks : watch.master.marks (watch.master.occurrences (.hear now bytes)) = [] := by
    rw [Master.marks, hfollowed]
  refine ⟨?_, ?_⟩
  · rw [hcourse.settled, hcourse.flight_eq, hfollowed, h.course.settled]
  · rw [hcourse.link_eq, hmarks]
    rfl

/-- Polls have one outcome, and the link follows from the outcomes. After any
    run of a new master whose caller reports on each request once, the marks
    that the reference makes of what occurred take turns: each poll is begun
    while none is in flight, and resolved once at most. The phase is that of
    the reference, which is idle, sending or awaiting. The count of failures
    and whether the link is up are closed forms of the outcomes. All notes but
    remarks are the chronicle of the marks, so that the link is noted to come
    up and go down right where the closed form flips. With any queue a call
    does the same, and notes the same as far as there is room. Bytes that
    bring no answer to the poll in flight move neither phase nor link. -/
theorem watched_resolves {timing : Timing} {watch : Watch} (h : Watched timing watch) :
    let flight := (watch.reference timing).1
    let marks := (watch.reference timing).2
    Alternates none marks flight.kind? ∧
    watch.master.phase = flight.phase ∧
    watch.master.record.link.failures.toNat = min 255 (Outcome.failuresSince (outcomes marks)) ∧
    (watch.master.record.link.isUp = true ↔
      (∃ outcome ∈ outcomes marks, outcome.isSuccess = true) ∧
        Outcome.failuresSince (outcomes marks) < max 1 timing.disconnectThreshold.toNat) ∧
    tidings watch.notes = chronicle timing.disconnectThreshold [] marks ∧
    (∀ call, watch.Permits call → ∃ notes, (watch.call call).notes = watch.notes ++ notes ∧
      ∀ queue, watch.master.call call queue
        = ((watch.call call).master, queue.pushAll notes)) ∧
    (∀ now bytes, (∀ kind, watch.master.phase = .awaiting kind →
        ∀ frame ∈ (watch.master.refreshed now).found bytes, kind.answer? frame = none) →
      (watch.call (.hear now bytes)).master.phase = watch.master.phase ∧
        (watch.call (.hear now bytes)).master.record.link = watch.master.record.link) := by
  have hstep := inStep_of_watched h
  have hcourse := hstep.course
  -- The course gives the link by its moves, and these give it in closed form.
  have hreflects : watch.master.record.link.Reflects timing.disconnectThreshold
      (outcomes ((Master.new timing).marks watch.past)) := by
    have hall := Link.reflects_afterAll (Link.reflects_new timing.disconnectThreshold)
      (outcomes ((Master.new timing).marks watch.past))
    rw [hcourse.link_eq]
    exact hall
  refine ⟨hcourse.flight_eq ▸ hcourse.alternates, hcourse.flight_eq ▸ hcourse.settled,
    hreflects.failures_eq, ?_, ?_, fun call hpermits => ?_,
    fun now bytes hnone => hear_of_no_answer hstep hnone⟩
  · rw [hreflects.isUp_eq, Outcome.holdUp, Bool.and_eq_true, List.any_eq_true, decide_eq_true_eq]
    rfl
  · rw [hcourse.tidings_eq]
    exact report_eq_chronicle (Link.reflects_new timing.disconnectThreshold) _
  · rcases call_does hstep hpermits with ⟨notes, hnotes, hdoes, _⟩
    exact ⟨notes, hnotes, hdoes⟩

/-- A bus scan that is answered. Its answer brings the link up. -/
theorem watched_resolves_scan :
    ∃ watch, Watched (.ofMode .highPerformance) watch ∧ watch.master.phase = .idle ∧
      watch.master.record.link.isUp = true ∧ tidings watch.notes = [.sent .busScan ⟨0⟩,
        .connected, .identified #v[0x0430, 0x10FF, 0xA845], .completed .busScan] := by
  have hstart : Watched (.ofMode .highPerformance) (on (.new (.ofMode .highPerformance))) := .start
  have hbegun := Watched.call (.poll 1000 ⟨0⟩) hstart (by decide +kernel)
  have hsent := Watched.call (.sent 1002) hbegun (by decide +kernel)
  have hheard := Watched.call (.hear 1010 [0x02, 0x17, 0x0A, 0x00, 0x00, 0x00, 0x05, 0x04, 0x30,
    0x10, 0xFF, 0xA8, 0x45, 0x8F, 0x06]) hsent (by decide +kernel)
  have hresolves := watched_resolves hheard
  refine ⟨_, hheard, ?_, ?_, ?_⟩
  · rw [hresolves.2.1]
    decide +kernel
  · decide +kernel
  · rw [hresolves.2.2.2.2.1]
    decide +kernel

end Watch

end DoorBus

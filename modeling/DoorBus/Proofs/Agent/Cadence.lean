import Mathlib.Data.List.Chain
import DoorBus.Proofs.Agent.DriveRequest
import DoorBus.Proofs.Agent.Logbook
import DoorBus.Proofs.Master.Offset

/-!
# The Rhythm of the Polls

An agent that has started to poll goes on to do so. Whatever comes in, and
whether or not its requests can be sent, it is ready for the next poll as soon
as the last one has been answered, has failed or has taken too long, and then
it only waits for the interval to pass. It never polls sooner, and never sends
more than one request in a step.

The reason is in the order of a step. What comes in can resolve the poll in
flight but cannot begin one. The look at the clock behind it resolves the poll
if the answer is overdue, and so does a request that could not be sent. So a
step that finds the poll overdue has none in flight when it gets to the next
one, and the master remembers no time but that of the last request.

How often requests are sent is read off the log of the hardware.

## Main definitions

* `Node.Paced`: The log goes with the time that the master remembers.

## Theorems

* `follow_inbound`, `follow_inbound_looked`: What comes in can only resolve.
* `lastPoll_inbound`: It leaves the time of the last poll alone.
* `listened_course`: A node that has listened keeps to the reference.
* `idle_listened`: It has no poll in flight if the last one is overdue.
* `lastPoll_step`: A step remembers when it sent a request.
* `paced_of_leads`: Requests keep the interval.
* `step_cadence`: What a step does about the polls.
* `step_cadence_unsent`: An agent that cannot send, on a clock that wraps.
-/

namespace DoorBus

/-! ## What comes in -/

namespace Flight

variable {timeout : Millis} {flight : Flight} {occurrences : List Occurrence}

/-- What comes in can only resolve the poll in flight. -/
theorem follow_inbound (h : ∀ occurrence ∈ occurrences, occurrence.isInbound = true) :
    (flight.follow timeout occurrences).1 = flight ∨
      (flight.follow timeout occurrences).1 = .idle := by
  induction occurrences with
  | nil => exact .inl rfl
  | cons occurrence occurrences ih =>
      have hrest : ∀ other ∈ occurrences, other.isInbound = true := by
        intro other hother
        exact h other (List.mem_cons_of_mem occurrence hother)
      rw [follow_cons]
      rcases step_inbound timeout flight (h occurrence List.mem_cons_self) with
        hstep | ⟨mark, hstep⟩
      · rw [hstep]
        exact ih hrest
      -- Nothing that only comes in begins a poll, so from there on it stays idle.
      · rw [hstep, follow_inbound_idle hrest]
        exact .inr rfl

/-- A look at the clock resolves what has taken too long. -/
theorem follow_inbound_looked {now : Millis}
    (h : ∀ occurrence ∈ occurrences, occurrence.isInbound = true)
    (hlate : flight = .idle ∨
      ∃ kind since, flight = .awaiting kind since ∧ timeout ≤ Millis.elapsed since now) :
    (flight.follow timeout (occurrences ++ [.looked now])).1 = .idle := by
  rw [follow_append, follow_singleton]
  rcases (follow_inbound h : (flight.follow timeout occurrences).1 = flight ∨ _) with
    hsame | hidle
  · -- Nothing was resolved before, so it is up to the clock.
    rcases hlate with hidle | ⟨kind, since, hawaiting, helapsed⟩
    · rw [hsame, hidle]
      rfl
    · rw [hsame, hawaiting, step, if_pos helapsed]
  · rw [hidle]
    rfl

end Flight

namespace Master

/-- The first poll of all is due at once; any other one waits for the interval. -/
theorem isDue_iff {master : Master} {now : Millis} :
    master.isDue now = true ↔ master.phase = .idle ∧
      ∀ last ∈ master.lastPoll, master.timing.pollInterval ≤ Millis.elapsed last now := by
  constructor
  · intro h
    refine ⟨phase_of_isDue h, ?_⟩
    intro last hlast
    rw [isDue, Option.mem_def.mp hlast, Bool.and_eq_true, decide_eq_true_eq] at h
    exact h.2
  · rintro ⟨hidle, hlong⟩
    rw [isDue, hidle]
    cases hpoll : master.lastPoll with
    | none => rfl
    | some last => exact decide_eq_true (hlong last hpoll)

/-- Bytes that are given up say nothing about polls. -/
theorem flushStale_lastPoll (master : Master) (now : Millis) (queue : EventQueue) :
    (master.flushStale now queue).1.lastPoll = master.lastPoll := by
  by_cases hfresh : master.IsFresh now
  · rw [flushStale_of_fresh hfresh]
  · rw [flushStale_of_stale hfresh]

theorem resolveFailure_lastPoll (master : Master) (queue : EventQueue) :
    (master.resolveFailure queue).1.lastPoll = master.lastPoll := by
  rw [resolveFailure_eq]

/-- What comes in leaves the time of the last poll alone. -/
theorem lastPoll_inbound (master : Master) {call : Call} (h : call.isInbound = true)
    (queue : EventQueue) : (master.call call queue).1.lastPoll = master.lastPoll := by
  cases call with
  | hear now bytes =>
      rw [call, hear]
      by_cases hempty : bytes.isEmpty = true
      · rw [if_pos hempty]
      · rw [if_neg hempty]
        exact (readings_of_timeless (hearBytes_timeless bytes) _ _).1.trans
          (flushStale_lastPoll master now queue)
  | check now =>
      rw [call, checkTimeouts]
      by_cases hlate : (master.flushStale now queue).1.isOverdue now = true
      · simp only [if_pos hlate]
        exact (resolveFailure_lastPoll _ _).trans (flushStale_lastPoll master now queue)
      · simp only [if_neg hlate]
        exact flushStale_lastPoll master now queue
  -- The other calls do not come in.
  | poll now action => exact absurd h Bool.false_ne_true
  | sent now => exact absurd h Bool.false_ne_true
  | unsent => exact absurd h Bool.false_ne_true

/-- No number of calls that only come in changes the time of the last poll. -/
theorem lastPoll_callAll (master : Master) {calls : List Call}
    (h : ∀ call ∈ calls, call.isInbound = true) :
    (master.callAll calls).lastPoll = master.lastPoll := by
  induction calls generalizing master with
  | nil => rfl
  | cons call calls ih =>
      have hrest : ∀ other ∈ calls, other.isInbound = true := by
        intro other hother
        exact h other (List.mem_cons_of_mem call hother)
      exact (ih _ hrest).trans (lastPoll_inbound master (h call List.mem_cons_self) .unbounded)

end Master

namespace Node

variable {σ : Type} {node : Node σ}

/-! ## A step -/

/-- Between two steps no request is being sent, so that a poll is over or waits
    for its answer. -/
theorem phase_of_atRest (h : node.AtRest) :
    node.agent.master.phase = .idle ∨ ∃ kind, node.agent.master.phase = .awaiting kind := by
  have hsettled : node.agent.master.phase = node.agent.master.flight.phase := h.settled
  have howes : node.agent.master.flight.isSending = false := h.owes_eq
  rw [hsettled]
  cases hflight : node.agent.master.flight with
  | idle => exact .inl rfl
  | awaiting kind since => exact .inr ⟨kind, rfl⟩
  | sending kind =>
      rw [hflight] at howes
      exact absurd howes Bool.noConfusion

/-- A node that has listened keeps to the reference, which ends with a look at
    the clock. -/
theorem listened_course (h : node.AtRest) (hw : Hardware σ) :
    ∃ heard notes, (∀ occurrence ∈ heard, occurrence.isInbound = true) ∧
      Master.Course node.agent.master (heard ++ [.looked (node.stepTime hw)])
        (node.listened hw).agent.master notes := by
  have hworks := listen_works hw (Watch.inStep_on h.settled) node rfl
  have hcourse := (Watch.inStep_callAll (Watch.inStep_on h.settled) hworks.permits).course
  rcases past_callAll (Watch.on node.agent.master)
      (isInbound_reads hw Agent.readsPerStep node.hardware) with ⟨heard, hpast, hinbound⟩
  have htime : node.stepTime hw = hw.now (node.heard hw) := by
    rw [stepTime, listen_eq_listened h]
    rfl
  -- The last call of listening is the look at the clock.
  have hlooked : ((Watch.on node.agent.master).callAll (node.listenCalls hw)).past
      = heard ++ [.looked (node.stepTime hw)] := by
    rw [listenCalls, Watch.callAll_append, htime]
    exact congrArg (· ++ [Occurrence.looked (hw.now (node.heard hw))]) hpast
  rw [hlooked, Watch.master_callAll] at hcourse
  exact ⟨heard, _, hinbound, hcourse⟩

/-- Once it has listened, a node has no poll in flight if it had none before, or
    if the answer is overdue. -/
theorem idle_listened (h : node.AtRest) {hw : Hardware σ}
    (hlate : node.agent.master.phase = .idle ∨ node.agent.master.timing.responseTimeout
      ≤ Millis.elapsed node.agent.master.sentAt (node.stepTime hw)) :
    (node.listened hw).agent.master.phase = .idle := by
  rcases listened_course h hw with ⟨heard, notes, hinbound, hcourse⟩
  have hflight : node.agent.master.flight = .idle ∨ ∃ kind since,
      node.agent.master.flight = .awaiting kind since ∧
        node.agent.master.timing.responseTimeout ≤ Millis.elapsed since (node.stepTime hw) := by
    -- A node at rest owes no report, so its master is idle or awaits an answer.
    rcases phase_of_atRest h with hidle | ⟨kind, hawaiting⟩
    · refine .inl ?_
      rw [Master.flight, hidle]
    · rcases hlate with hidle | helapsed
      · rw [hawaiting] at hidle
        exact absurd hidle Phase.noConfusion
      · refine .inr ⟨kind, node.agent.master.sentAt, ?_, helapsed⟩
        rw [Master.flight, hawaiting]
  rw [hcourse.settled, hcourse.flight_eq, Master.followed,
    Flight.follow_inbound_looked hinbound hflight]
  rfl

/-- Listening decides whether a poll is in flight, but not when the next one is
    due. -/
theorem lastPoll_listened (hw : Hardware σ) (node : Node σ) :
    (node.listened hw).agent.master.lastPoll = node.agent.master.lastPoll :=
  Master.lastPoll_callAll node.agent.master (isInbound_listenCalls hw node)

theorem timing_listened (h : node.AtRest) (hw : Hardware σ) :
    (node.listened hw).agent.master.timing = node.agent.master.timing := by
  rcases listened_course h hw with ⟨_, _, _, hcourse⟩
  exact hcourse.timing_eq

theorem lastPoll_transmit (hw : Hardware σ) (node : Node σ) (request : List UInt8)
    (queue : EventQueue) :
    (node.transmit hw request queue).1.agent.master.lastPoll = node.agent.master.lastPoll := by
  unfold transmit
  rcases hw.transmit request node.hardware with ⟨hardware, error | done⟩
  · -- A request that could not be sent has been begun all the same.
    exact Master.resolveFailure_lastPoll (node.agent.master.move .transmitFailed) queue
  · rfl

/-- The time is noted when a poll is begun, by the same look at the clock that
    found it due. -/
theorem lastPoll_poll (hw : Hardware σ) (node : Node σ) (queue : EventQueue) :
    (node.poll hw queue).1.agent.master.lastPoll
      = if node.agent.master.isDue (hw.now node.hardware) then some (hw.now node.hardware)
        else node.agent.master.lastPoll := by
  rw [poll]
  by_cases hdue : node.agent.master.isDue (hw.now node.hardware) = true
  · rw [if_pos hdue, Master.beginIfDue_of_due hdue]
    exact lastPoll_transmit hw _ _ _
  · rw [if_neg hdue, Master.beginIfDue_of_not_due hdue]
    rfl

/-- A step remembers when it sent a request. -/
theorem lastPoll_step (h : node.AtRest) (hw : Hardware σ) :
    (node.step hw).1.agent.master.lastPoll
      = ((node.sending? hw).map Sending.time).or node.agent.master.lastPoll := by
  have hpoll : (node.step hw).1.agent.master.lastPoll
      = if (node.listen hw .empty).1.agent.master.isDue (node.stepTime hw) then
          some (node.stepTime hw) else (node.listen hw .empty).1.agent.master.lastPoll :=
    lastPoll_poll hw (node.listen hw .empty).1 (node.listen hw .empty).2
  rw [hpoll, sending?]
  by_cases hdue : (node.listen hw .empty).1.agent.master.isDue (node.stepTime hw) = true
  · rw [if_pos hdue, if_pos hdue]
    rfl
  · rw [if_neg hdue, if_neg hdue, listen_eq_listened h]
    exact lastPoll_listened hw node

/-- A request is sent once the interval has passed, at the time of the step. -/
theorem isDue_of_sending (h : node.AtRest) {hw : Hardware σ} {sending : Sending}
    (hsending : sending ∈ node.sending? hw) :
    sending.time = node.stepTime hw ∧
      ∀ last ∈ node.agent.master.lastPoll,
        node.agent.master.timing.pollInterval ≤ Millis.elapsed last (node.stepTime hw) := by
  rw [sending?, Option.mem_def, listen_eq_listened h] at hsending
  by_cases hdue : (node.listened hw).agent.master.isDue (node.stepTime hw) = true
  · rw [if_pos hdue, Option.some.injEq] at hsending
    refine ⟨by rw [← hsending], ?_⟩
    have hlong := (Master.isDue_iff.mp hdue).2
    rw [lastPoll_listened, timing_listened h] at hlong
    exact hlong
  · rw [if_neg hdue] at hsending
    exact absurd hsending (by simp only [reduceCtorEq, not_false_eq_true])

/-- A request is sent if the poll in flight is over or overdue, and the
    interval has passed. -/
theorem sending_of_idle (h : node.AtRest) {hw : Hardware σ}
    (hlate : node.agent.master.phase = .idle ∨ node.agent.master.timing.responseTimeout
      ≤ Millis.elapsed node.agent.master.sentAt (node.stepTime hw))
    (hlong : ∀ last ∈ node.agent.master.lastPoll,
      node.agent.master.timing.pollInterval ≤ Millis.elapsed last (node.stepTime hw)) :
    ∃ request, node.sending? hw = some ⟨node.stepTime hw, request⟩ := by
  -- Listening has changed neither the time of the last poll nor the interval.
  have hdue : (node.listened hw).agent.master.isDue (node.stepTime hw) = true := by
    refine Master.isDue_iff.mpr ⟨idle_listened h hlate, ?_⟩
    rw [lastPoll_listened, timing_listened h]
    exact hlong
  rw [sending?, listen_eq_listened h, if_pos hdue]
  exact ⟨_, rfl⟩

/-- An agent is stuck with the timing that it was started with. -/
theorem timing_of_reachable {hw : Hardware σ} {timing : Timing} {policy : WakePolicy}
    (h : Reachable hw timing policy node) : node.agent.master.timing = timing := by
  rcases watched_of_reachable h with ⟨watch, hwatched, hmaster, _⟩
  rw [hmaster]
  exact (Watch.inStep_of_watched hwatched).course.timing_eq

/-! ## Runs -/

section

variable {hw : Hardware σ} {may : Mailbox → Mailbox → Prop} {timing : Timing}
  {policy : WakePolicy} {mailbox : Mailbox} {hardware : σ} {node : Node (σ × Log)}

/-- Requests keep the interval, and the master remembers the time of the last
    one. -/
structure Paced (timing : Timing) (node : Node (σ × Log)) : Prop where
  lastPoll_eq : node.agent.master.lastPoll = node.log.sent.getLast?.map Sending.time
  spaced : node.log.sent.IsChain fun earlier later =>
    timing.pollInterval ≤ Millis.elapsed earlier.time later.time

theorem paced_step (hnode : node.Paced timing) (hreachable : Reachable hw timing policy node.bare) :
    (node.step hw.logged).1.Paced timing := by
  have hrest := atRest_of_reachable hreachable
  have hlast : (node.bare.step hw).1.agent.master.lastPoll
      = ((node.bare.sending? hw).map Sending.time).or
          (node.log.sent.getLast?.map Sending.time) := by
    rw [lastPoll_step hrest, ← hnode.lastPoll_eq]
    rfl
  rw [step_logged]
  cases hsending : node.bare.sending? hw with
  | none =>
      rw [hsending] at hlast
      refine ⟨?_, ?_⟩
      · simp only [log, within, Option.toList_none, List.append_nil]
        exact hlast
      · simp only [log, within, Option.toList_none, List.append_nil]
        exact hnode.spaced
  | some sending =>
      rw [hsending] at hlast
      rcases isDue_of_sending hrest hsending with ⟨htime, hlong⟩
      rw [timing_of_reachable hreachable, ← htime] at hlong
      refine ⟨?_, ?_⟩
      · simp only [log, within, Option.toList_some, List.getLast?_concat]
        exact hlast
      · -- The last request in the log is the one that the master remembers.
        refine List.isChain_append.mpr ⟨hnode.spaced, List.isChain_singleton _, ?_⟩
        intro earlier hearlier later hlater
        rw [← Option.some.inj hlater]
        refine hlong earlier.time ?_
        have hremembered : node.bare.agent.master.lastPoll
            = node.log.sent.getLast?.map Sending.time := hnode.lastPoll_eq
        rw [hremembered, Option.mem_def.mp hearlier]
        rfl

/-- Whatever happens between two steps leaves the log and the master alone, so
    only steps matter. -/
theorem paced_of_leads
    (h : Leads hw may ((start timing policy mailbox hardware).within {}) node) :
    node.Paced timing := by
  induction h with
  | start => exact ⟨rfl, List.isChain_nil⟩
  | step hbefore ih => exact paced_step ih (reachable_of_leads hbefore)
  | other mailbox hardware _ _ ih => exact ⟨ih.lastPoll_eq, ih.spaced⟩

/-- The rhythm of the polls. Take an agent of either kind with any timing, and
    anything that agent, host and hardware do from its start on, and let it
    take a step.

    Behind the step no poll is in flight, or its answer is due. The step sends
    one request at most, at the time at which it looks at the clock. From the
    start on, any two requests in a row are an interval apart at least, and the
    master remembers the time of the last one. And if before the step no poll
    was in flight, or its answer is overdue, and there has been no request yet
    or the interval has passed since, then the step does send a request. Of the
    log that says so the agent knows nothing. -/
theorem step_cadence
    (h : Leads hw may ((start timing policy mailbox hardware).within {}) node) :
    let now := node.bare.stepTime hw
    let after := (node.step hw.logged).1
    let isLong := fun earlier later => timing.pollInterval ≤ Millis.elapsed earlier later
    (after.agent.master.phase = .idle ∨ ∃ kind, after.agent.master.phase = .awaiting kind) ∧
    (∃ sendings, after.log.sent = node.log.sent ++ sendings ∧ sendings.length ≤ 1 ∧
      ∀ sending ∈ sendings, sending.time = now) ∧
    (after.log.sent.map Sending.time).IsChain isLong ∧
    after.agent.master.lastPoll = after.log.sent.getLast?.map Sending.time ∧
    ((node.agent.master.phase = .idle ∨
        timing.responseTimeout ≤ Millis.elapsed node.agent.master.sentAt now) →
      (∀ last ∈ node.agent.master.lastPoll, isLong last now) →
      ∃ request, after.log.sent = node.log.sent ++ [⟨now, request⟩]) ∧
    after.bare = (node.bare.step hw).1 := by
  intro now after isLong
  have hreachable := reachable_of_leads h
  have hrest := atRest_of_reachable hreachable
  have hpaced := paced_of_leads (.step h)
  have hafter : after = (node.bare.step hw).1.within _ := congrArg Prod.fst (step_logged hw node)
  have hsent : after.log.sent = node.log.sent ++ (node.bare.sending? hw).toList :=
    congrArg (fun node => node.log.sent) hafter
  refine ⟨?_, ⟨_, hsent, ?_, ?_⟩, (List.isChain_map _).mpr hpaced.spaced, hpaced.lastPoll_eq,
    ?_, congrArg bare hafter⟩
  · -- The step has told its master how sending went, so none is left to be sent.
    have hphase := phase_of_atRest (atRest_of_reachable (.step hreachable))
    rw [hafter]
    exact hphase
  · cases node.bare.sending? hw with
    | none => exact Nat.zero_le 1
    | some sending => exact Nat.le_refl 1
  · intro sending hsending
    exact (isDue_of_sending hrest (Option.mem_toList.mp hsending)).1
  · intro hlate hlong
    have htiming := timing_of_reachable hreachable
    rw [← htiming] at hlate
    rcases sending_of_idle hrest hlate (by rw [htiming]; exact hlong) with ⟨request, hsending⟩
    refine ⟨request, ?_⟩
    rw [hsent, hsending]
    rfl

end

/-- Nothing that an agent sends gets out, and the clock wraps around. It polls
    again when the interval has passed. -/
theorem step_cadence_unsent :
    let hw : Hardware Desk :=
      { Desk.hardware with transmit := fun _ desk => (desk, .error .transport) }
    let first := (start (.ofMode .highPerformance) .never .new { clock := 0xFFFFFFF0 }).within {}
    let failed : Node (Desk × Log) :=
      { (first.step hw.logged).1 with
        mailbox := .new
        hardware := ({ clock := 484, waiting := [0x02, 0x97] }, (first.step hw.logged).1.log) }
    (failed.step hw.logged).1.log.sent.map Sending.time = [0xFFFFFFF0, 484] := by
  intro hw first failed
  have hleads : Leads hw (fun _ _ => True) first failed :=
    .other _ _ (.step .start) trivial
  rcases step_cadence hleads with ⟨_, _, _, _, hprogress, _⟩
  have hbefore : failed.log.sent.map Sending.time = [0xFFFFFFF0] := by decide +kernel
  have htime : failed.bare.stepTime hw = 484 := by decide +kernel
  have hidle : failed.agent.master.phase = .idle := by decide +kernel
  -- The clock has wrapped in between, and five hundred milliseconds have passed.
  have hlong : ∀ last ∈ failed.agent.master.lastPoll, (Timing.ofMode .highPerformance).pollInterval
      ≤ Millis.elapsed last (failed.bare.stepTime hw) := by
    have hpoll : failed.agent.master.lastPoll = some 0xFFFFFFF0 := by decide +kernel
    rw [hpoll, htime]
    intro last hlast
    rw [← Option.some.inj hlast]
    decide
  rcases hprogress (.inl hidle) hlong with ⟨request, hsent⟩
  rw [hsent, List.map_append, hbefore, htime]
  rfl

end Node

end DoorBus

import DoorBus.Proofs.Master.Overflow

/-!
# What a Link Says of the Drive

A drive identifies itself in its answer to a bus scan. The link comes up with the
first poll that is answered, and there are bus scans until then. So one would
think that a drive on a link that is up has identified itself.

It need not have. An exception counts as an answer: the drive is there, or it would
not complain. It brings the link up and ends the bus scans, but it carries no words.
The last theorem is such a run. What does hold is that a bus scan has been answered
one way or the other, and that the identification is there exactly if one of the
answers was not an exception.

For all of this it is enough to look at replies, the frames that end a poll while
its answer is due. Between two replies a master can only grow less sure of the
drive: `Presumes` says that it goes by a drive that has answered, because the link is
up or because a command poll is under way, and no step without a reply brings that
about. This holds whatever the caller does. A caller who reports on each request, and
no more than that, also gets that the link comes up through a bus scan every time,
because the poll under way is then of the kind that the link asks for.

## Main definitions

* `Master.reply?`, `Master.repliesTo`, `Master.repliesAll`: What ends polls in a run.
* `Master.Presumes`: The master goes by a drive that has answered.
* `Master.Unanswered`: A step without a reply.
* `Master.Tells`: What replies say of the master behind them.
* `Master.InKind`: The poll under way is of the kind that the link asks for.

## Theorems

* `hearByte_cases`: A byte brings a reply, or leaves link and phase alone.
* `tells_reply`, `tells_of_unanswered`: The two sorts of steps.
* `unanswered_call`: Only bytes bring replies.
* `tells_call`, `tells_callAll`: A call adds its replies to those before, and a run.
* `inKind_of_watched`: A caller who reports keeps the polls in kind.
* `raised_by_scan`: The link comes up through a bus scan.
* `scanned_of_linked`: What a link says of the drive.
* `not_identified`: A link to a drive that has not identified itself.
-/

namespace DoorBus

/-! ## Records -/

/-- A phase has its kind from the phase before, or from the step that begins the
    poll. No other step makes one. -/
theorem Phase.kind_of_next {phase : Phase} {step : PhaseStep} {kind : PollKind}
    (h : (phase.next step).kind? = some kind) : phase.kind? = some kind ∨ step = .start kind := by
  cases phase with
  | idle =>
      cases step with
      | start other => exact .inr (congrArg _ (Option.some.inj h))
      | _ => exact .inl h
  -- Between its start and its end a poll keeps its kind.
  | sending other => cases step <;> exact .inl h
  | awaiting other => cases step <;> exact .inl h
  | completed other =>
      cases step with
      | settled => exact absurd h (by simp only [next, kind?, reduceCtorEq, not_false_eq_true])
      | _ => exact .inl h
  | timedOut other =>
      cases step with
      | settled => exact absurd h (by simp only [next, kind?, reduceCtorEq, not_false_eq_true])
      | _ => exact .inl h

/-- A failure brings no link up. -/
theorem Link.isUp_of_fail {link : Link} (h : link.fail.1.isUp = true) : link.isUp = true := by
  unfold fail at h
  simp only [] at h
  generalize (if link.failures = 255 then 255 else link.failures + 1) = failures at h
  by_cases hdown : link.isUp = true ∧ link.threshold ≤ failures
  · exact hdown.1
  · rw [if_neg hdown] at h
    exact h

/-- A link that is up after an outcome was up before, or the outcome is a
    success. -/
theorem DriveRecord.isUp_of_after {record : DriveRecord} {outcome : Outcome}
    (h : (record.after outcome).link.isUp = true) :
    outcome.isSuccess = true ∨ record.link.isUp = true := by
  cases outcome with
  | answered response => exact .inl rfl
  | excepted code => exact .inl rfl
  | rejected fault => exact .inr (Link.isUp_of_fail h)
  | overdue => exact .inr (Link.isUp_of_fail h)
  | unsent => exact .inr (Link.isUp_of_fail h)

/-- There are two sorts of success, an answer and an exception. Only the first
    one identifies the drive. -/
theorem Outcome.cases_of_isSuccess {outcome : Outcome} (h : outcome.isSuccess = true) :
    (∃ response, outcome = .answered response) ∨ ∃ code, outcome = .excepted code := by
  cases outcome with
  | answered response => exact .inl ⟨response, rfl⟩
  | excepted code => exact .inr ⟨code, rfl⟩
  | _ => exact absurd h Bool.false_ne_true

/-- Only the answer to a bus scan leaves an identification. -/
theorem DriveRecord.identification_after (record : DriveRecord) (outcome : Outcome) :
    (record.after outcome).identification.isSome = true ↔
      record.identification.isSome = true ∨
        ∃ response, outcome = .answered response ∧ response.kind = .busScan := by
  cases outcome with
  | answered response =>
      rcases response with ⟨kind, registers, hlength⟩
      cases kind with
      | busScan => exact iff_of_true rfl (.inr ⟨_, rfl, rfl⟩)
      | commandPoll =>
          constructor
          · exact .inl
          · rintro (h | ⟨other, hother, hscan⟩)
            · exact h
            · rw [← Outcome.answered.inj hother] at hscan
              exact PollKind.noConfusion hscan
  | _ =>
      simp only [reduceCtorEq, false_and, exists_false, or_false]
      rfl

namespace Master

/-! ## Replies -/

/-- The reply that a byte completes, with the kind of the poll that it ends. -/
def reply? (master : Master) (byte : UInt8) : Option (PollKind × Outcome) :=
  match Receiver.returned (master.receiver.feed byte).2, master.phase with
  | some frame, .awaiting kind => (kind.answer? frame).map (kind, ·)
  | _, _ => none

/-- The replies in some bytes. -/
def replies (master : Master) : List UInt8 → List (PollKind × Outcome)
  | [] => []
  | byte :: rest => (master.reply? byte).toList ++ (master.hearByte byte .unbounded).1.replies rest

/-- The replies in a call. -/
def repliesTo (master : Master) : Call → List (PollKind × Outcome)
  | .hear now bytes =>
    ({ (master.flushStale now .unbounded).1 with lastHeard := now }).replies bytes
  | .poll _ _ | .sent _ | .unsent | .check _ => []

/-- The replies in a run. -/
def repliesAll (master : Master) : List Call → List (PollKind × Outcome)
  | [] => []
  | call :: calls => master.repliesTo call ++ (master.call call .unbounded).1.repliesAll calls

/-- The same phase, link and identification. -/
structure Still (before after : Master) : Prop where
  phase_eq : after.phase = before.phase
  link_eq : after.record.link = before.record.link
  identification_eq : after.record.identification = before.record.identification

theorem still_flushStale (master : Master) (now : Millis) (queue : EventQueue) :
    Still master (master.flushStale now queue).1 := by
  by_cases hfresh : master.IsFresh now
  · rw [flushStale_of_fresh hfresh]
    exact ⟨rfl, rfl, rfl⟩
  · rw [flushStale_of_stale hfresh]
    exact ⟨rfl, rfl, rfl⟩

/-- A status heard on the side concerns neither the poll nor the link. -/
theorem still_overhear (master : Master) (frame : Frame) :
    Still master { master with record := master.record.overhear frame } := by
  unfold DriveRecord.overhear
  cases Incoming.ofFrame frame with
  | error error => exact ⟨rfl, rfl, rfl⟩
  | ok incoming =>
      cases incoming with
      | broadcast inner =>
          simp only []
          cases DoorStatus.ofFrame inner <;> exact ⟨rfl, rfl, rfl⟩
      | response answer => exact ⟨rfl, rfl, rfl⟩
      | exception code => exact ⟨rfl, rfl, rfl⟩

/-- A byte brings a reply that ends the poll under way, or leaves alone what
    replies are about. -/
theorem hearByte_cases (master : Master) (byte : UInt8) (queue : EventQueue) :
    (∃ kind outcome frame, master.phase = .awaiting kind ∧ kind.answer? frame = some outcome ∧
      master.reply? byte = some (kind, outcome) ∧
      (master.hearByte byte queue).1
        = { master.fed byte with phase := .idle, record := master.record.after outcome }) ∨
    (master.reply? byte = none ∧ Still master (master.hearByte byte queue).1) := by
  rw [hearByte_eq, reply?]
  cases (master.receiver.feed byte).2 with
  | error error => exact .inr ⟨rfl, rfl, rfl, rfl⟩
  | ok frame? =>
      cases frame? with
      | none => exact .inr ⟨rfl, rfl, rfl, rfl⟩
      | some frame =>
          simp only [Receiver.returned]
          rcases (master.fed byte).onFrame_cases frame with
            ⟨kind, outcome, hphase, hanswer, hdoes⟩ | ⟨hnone, hdoes⟩
          · have hawaiting : master.phase = .awaiting kind := hphase
            refine .inl ⟨kind, outcome, frame, hawaiting, hanswer, ?_, ?_⟩
            · simp only [hawaiting, hanswer, Option.map_some]
            · rw [hdoes]
              rfl
          · refine .inr ⟨?_, ?_⟩
            -- A frame that comes while no answer is due is no reply, whatever it is.
            · cases hphase : master.phase with
              | awaiting kind => simp only [hnone kind hphase, Option.map_none]
              | _ => rfl
            · rw [hdoes]
              have hstill := still_overhear (master.fed byte) frame
              exact ⟨hstill.phase_eq, hstill.link_eq, hstill.identification_eq⟩

/-! ## What replies tell -/

/-- The master goes by a drive that has answered: the link is up, or a command
    poll is under way. -/
def Presumes (master : Master) : Prop :=
  master.record.link.isUp = true ∨ master.phase.kind? = some .commandPoll

/-- A step without a reply. Nothing is identified, and the master presumes no more
    than before. -/
structure Unanswered (before after : Master) : Prop where
  identification_eq : after.record.identification = before.record.identification
  presumes : after.Presumes → before.Presumes

/-- What moves nothing is a step without a reply. -/
theorem unanswered_of_still {before after : Master} (h : Still before after) :
    Unanswered before after where
  identification_eq := h.identification_eq
  presumes hafter := by
    rw [Presumes, h.phase_eq, h.link_eq] at hafter
    exact hafter

theorem unanswered_trans {before middle after : Master} (h : Unanswered before middle)
    (h' : Unanswered middle after) : Unanswered before after :=
  ⟨h'.identification_eq.trans h.identification_eq, fun hafter => h.presumes (h'.presumes hafter)⟩

/-- A step of the phase presumes no more than before, as long as a poll begun is
    of the kind that the link asks for. -/
theorem unanswered_move (master : Master) (step : PhaseStep)
    (hstep : ∀ kind, step = .start kind → kind = master.nextKind) :
    Unanswered master (master.move step) := by
  refine ⟨rfl, ?_⟩
  rintro (hup | hkind)
  · exact .inl hup
  rcases Phase.kind_of_next hkind with hbefore | hstart
  · exact .inr hbefore
  -- A command poll is only begun while the link is up.
  · have hnext := hstep .commandPoll hstart
    unfold nextKind at hnext
    split at hnext
    · exact .inl ‹_›
    · exact PollKind.noConfusion hnext

/-- A poll given up presumes less, if anything: its failure may take the link
    down and never brings it up. -/
theorem unanswered_resolveFailure (master : Master) (queue : EventQueue) :
    Unanswered master (master.resolveFailure queue).1 := by
  rw [resolveFailure_eq]
  refine ⟨rfl, ?_⟩
  rintro (hup | hkind)
  · exact .inl (Link.isUp_of_fail hup)
  · rcases Phase.kind_of_next hkind with hbefore | hstart
    · exact .inr hbefore
    · exact PhaseStep.noConfusion hstart

/-- Only bytes bring replies. Each other call is a move of the phase, with a
    failure to deal with where there is one. -/
theorem unanswered_call (master : Master) {call : Call} (h : ∀ now bytes, call ≠ .hear now bytes)
    (queue : EventQueue) : Unanswered master (master.call call queue).1 := by
  cases call with
  | hear now bytes => exact absurd rfl (h now bytes)
  -- The kind of a poll begun is the one that the link asks for.
  | poll now action =>
      by_cases hdue : master.isDue now = true
      · rw [(poll_of_due hdue action).2]
        have hmove := unanswered_move master (.start master.nextKind)
          fun kind hkind => (PhaseStep.start.inj hkind).symm
        exact unanswered_trans hmove ⟨rfl, id⟩
      · rw [(poll_of_not_due hdue action).2]
        exact ⟨rfl, id⟩
  | sent now =>
      have hmove := unanswered_move master .transmitted
        fun kind hkind => PhaseStep.noConfusion hkind
      exact unanswered_trans hmove ⟨rfl, id⟩
  | unsent =>
      have hmove := unanswered_move master .transmitFailed
        fun kind hkind => PhaseStep.noConfusion hkind
      exact unanswered_trans hmove (unanswered_resolveFailure _ _)
  | check now =>
      rw [Master.call, checkTimeouts]
      refine unanswered_trans (unanswered_of_still (still_flushStale master now queue)) ?_
      by_cases hoverdue : (master.flushStale now queue).1.isOverdue now = true
      · simp only [if_pos hoverdue]
        have hmove := unanswered_move (master.flushStale now queue).1 .deadlineElapsed
          fun kind hkind => PhaseStep.noConfusion hkind
        exact unanswered_trans hmove (unanswered_resolveFailure _ _)
      · simp only [if_neg hoverdue]
        exact ⟨rfl, id⟩

/-- What replies say of the master behind them. -/
structure Tells (replies : List (PollKind × Outcome)) (master : Master) : Prop where
  identified_iff : master.record.identification.isSome = true ↔
    ∃ response, (.busScan, .answered response) ∈ replies
  scanned : master.Presumes → ∃ outcome, (.busScan, outcome) ∈ replies ∧ outcome.isSuccess = true

variable {replies : List (PollKind × Outcome)}

theorem tells_new (timing : Timing) : Tells [] (new timing) where
  identified_iff := by
    refine iff_of_false Bool.false_ne_true ?_
    rintro ⟨response, hmem⟩
    exact List.not_mem_nil hmem
  scanned := by
    rintro (hup | hkind)
    · exact absurd hup Bool.false_ne_true
    · exact absurd hkind.symm (Option.some_ne_none _)

/-- A step without a reply has nothing new to account for. -/
theorem tells_of_unanswered {before after : Master} (h : Tells replies before)
    (hstep : Unanswered before after) : Tells replies after where
  identified_iff := by rw [hstep.identification_eq, h.identified_iff]
  scanned hafter := h.scanned (hstep.presumes hafter)

theorem tells_reply {before after : Master} (h : Tells replies before) {kind : PollKind}
    {outcome : Outcome} {frame : Frame} (hphase : before.phase = .awaiting kind)
    (hanswer : kind.answer? frame = some outcome) (hidle : after.phase = .idle)
    (hrecord : after.record = before.record.after outcome) :
    Tells (replies ++ [(kind, outcome)]) after := by
  refine ⟨?_, ?_⟩
  · simp only [hrecord, DriveRecord.identification_after, h.identified_iff, List.mem_append,
      List.mem_singleton, Prod.mk.injEq, exists_or]
    -- The answer is of the kind that its poll asked for.
    refine or_congr_right (exists_congr fun response => ?_)
    constructor
    · rintro ⟨rfl, hkind⟩
      exact ⟨by rw [← (fits_of_answer hanswer).1, hkind], rfl⟩
    · rintro ⟨rfl, rfl⟩
      exact ⟨rfl, (fits_of_answer hanswer).1⟩
  · have hearlier : before.Presumes → ∃ other, (.busScan, other) ∈ replies ++ [(kind, outcome)] ∧
        other.isSuccess = true := by
      intro hpresumes
      rcases h.scanned hpresumes with ⟨other, hmem, hother⟩
      exact ⟨other, List.mem_append_left _ hmem, hother⟩
    rintro (hup | hkind)
    · rw [hrecord] at hup
      rcases DriveRecord.isUp_of_after hup with hsuccess | hbefore
      · cases kind with
        | busScan => exact ⟨outcome, List.mem_append_right _ (List.mem_singleton_self _), hsuccess⟩
        | commandPoll =>
            -- A command poll was under way, so there has been a scan before.
            exact hearlier (.inr (by rw [hphase]; rfl))
      · exact hearlier (.inl hbefore)
    · rw [hidle] at hkind
      exact absurd hkind (by simp only [Phase.kind?, reduceCtorEq, not_false_eq_true])

/-- A byte adds the reply that it completes to those before. -/
theorem tells_hearByte {master : Master} (h : Tells replies master) (byte : UInt8)
    (queue : EventQueue) :
    Tells (replies ++ (master.reply? byte).toList) (master.hearByte byte queue).1 := by
  rcases master.hearByte_cases byte queue with
    ⟨kind, outcome, frame, hphase, hanswer, hreply, hdoes⟩ | ⟨hnone, hstill⟩
  · rw [hreply, hdoes]
    exact tells_reply h hphase hanswer rfl rfl
  · rw [hnone, Option.toList_none, List.append_nil]
    exact tells_of_unanswered h (unanswered_of_still hstill)

/-- The queue has no say in what becomes of the master. A run may then be
    followed over any queue. -/
theorem hearByte_master (master : Master) (byte : UInt8) (queue queue' : EventQueue) :
    (master.hearByte byte queue).1 = (master.hearByte byte queue').1 :=
  (safeFromOverflow (hearByte_oblivious master byte)).master_eq queue queue'

/-- A run of bytes adds the replies in it, by induction over the bytes. -/
theorem tells_hearBytes {master : Master} (h : Tells replies master) (bytes : List UInt8)
    (queue : EventQueue) :
    Tells (replies ++ master.replies bytes) (master.hearBytes queue bytes).1 := by
  -- The master changes from byte to byte, and the replies so far with it.
  induction bytes generalizing master queue replies with
  | nil =>
      rw [Master.replies, List.append_nil]
      exact h
  | cons byte rest ih =>
      rw [Master.replies, ← List.append_assoc, hearByte_master master byte .unbounded queue]
      exact ih (tells_hearByte h byte queue) _

/-- A call adds its replies to those before. -/
theorem tells_call {master : Master} (h : Tells replies master) (call : Call) :
    Tells (replies ++ master.repliesTo call) (master.call call .unbounded).1 := by
  cases call with
  | hear now bytes =>
      rw [Master.call, hear, repliesTo]
      by_cases hempty : bytes.isEmpty = true
      · rw [if_pos hempty, List.isEmpty_iff.mp hempty, Master.replies, List.append_nil]
        exact h
      · rw [if_neg hempty]
        have hflush := unanswered_of_still (still_flushStale master now .unbounded)
        have hheard : Tells replies
            { (master.flushStale now .unbounded).1 with lastHeard := now } :=
          tells_of_unanswered h (unanswered_trans hflush ⟨rfl, id⟩)
        exact tells_hearBytes hheard bytes _
  -- No other call brings bytes.
  | _ =>
      rw [repliesTo, List.append_nil]
      exact tells_of_unanswered h (unanswered_call master (fun _ _ => Call.noConfusion) _)

/-- A run adds its replies, by induction over its calls. For a master that is
    new the replies of the run are all there are. -/
theorem tells_callAll {master : Master} (h : Tells replies master) (calls : List Call) :
    Tells (replies ++ master.repliesAll calls) (master.callAll calls) := by
  induction calls generalizing master replies with
  | nil =>
      rw [repliesAll, List.append_nil]
      exact h
  | cons call calls ih =>
      rw [repliesAll, ← List.append_assoc]
      exact ih (tells_call h call)

/-! ## Polls in kind -/

/-- The poll under way is of the kind that the link asks for. -/
def InKind (master : Master) : Prop :=
  ∀ kind, master.phase.kind? = some kind → kind = master.nextKind

theorem inKind_of_idle {master : Master} (h : master.phase = .idle) : master.InKind := by
  intro kind hkind
  rw [h] at hkind
  exact absurd hkind.symm (Option.some_ne_none kind)

theorem inKind_of_still {before after : Master} (h : before.InKind) (hstill : Still before after) :
    after.InKind := by
  intro kind hkind
  rw [nextKind, hstill.link_eq]
  rw [hstill.phase_eq] at hkind
  exact h kind hkind

/-- A byte keeps the poll in kind. A reply ends the poll, and anything else
    leaves both the poll and the link. -/
theorem inKind_hearByte {master : Master} (h : master.InKind) (byte : UInt8) (queue : EventQueue) :
    (master.hearByte byte queue).1.InKind := by
  rcases master.hearByte_cases byte queue with ⟨_, _, _, _, _, _, hdoes⟩ | ⟨_, hstill⟩
  · rw [hdoes]
    exact inKind_of_idle rfl
  · exact inKind_of_still h hstill

theorem inKind_hearBytes {master : Master} (h : master.InKind) (bytes : List UInt8)
    (queue : EventQueue) : (master.hearBytes queue bytes).1.InKind := by
  induction bytes generalizing master queue with
  | nil => exact h
  | cons byte rest ih => exact ih (inKind_hearByte h byte queue) _

/-- A poll that ends leaves the next one to be begun in kind. A report that nobody
    asked for would end the poll for the link, but not for the phase. -/
theorem inKind_call {master : Master} (h : master.InKind) {call : Call}
    (hreport : call.isReport = true → ∃ kind, master.phase = .sending kind) (queue : EventQueue) :
    (master.call call queue).1.InKind := by
  cases call with
  | poll now action =>
      by_cases hdue : master.isDue now = true
      · rw [(poll_of_due hdue action).2]
        intro kind hkind
        rw [begun, move, phase_of_isDue hdue] at hkind
        exact (Option.some.inj hkind).symm
      · rw [(poll_of_not_due hdue action).2]
        exact h
  | sent now =>
      intro kind hkind
      rcases Phase.kind_of_next hkind with hbefore | hstart
      · exact h kind hbefore
      · exact PhaseStep.noConfusion hstart
  | unsent =>
      rcases hreport rfl with ⟨kind, hphase⟩
      refine inKind_of_idle ?_
      rw [Master.call, transmitFailed, resolveFailure_eq, move, hphase]
      rfl
  | hear now bytes =>
      rw [Master.call, hear]
      by_cases hempty : bytes.isEmpty = true
      · rw [if_pos hempty]
        exact h
      · rw [if_neg hempty]
        have hflush := inKind_of_still h (still_flushStale master now queue)
        have hheard : InKind { (master.flushStale now queue).1 with lastHeard := now } :=
          inKind_of_still hflush ⟨rfl, rfl, rfl⟩
        exact inKind_hearBytes hheard bytes _
  | check now =>
      rw [Master.call, checkTimeouts]
      by_cases hoverdue : (master.flushStale now queue).1.isOverdue now = true
      · rcases (isOverdue_iff.mp hoverdue).1 with ⟨kind, hphase⟩
        simp only [if_pos hoverdue]
        refine inKind_of_idle ?_
        rw [resolveFailure_eq, move, hphase]
        rfl
      · simp only [if_neg hoverdue]
        exact inKind_of_still h (still_flushStale master now queue)

/-- A caller who reports every request keeps the polls in kind. A poll whose end
    is never reported could outlive the link that asked for it. -/
theorem inKind_of_watched {timing : Timing} {watch : Watch} (h : Watch.Watched timing watch) :
    watch.master.InKind := by
  induction h with
  | start => exact inKind_of_idle rfl
  | call call hwatched hpermits ih =>
      exact inKind_call ih (Watch.sending_of_permits (Watch.inStep_of_watched hwatched) hpermits) _

/-! ## How the link comes up -/

theorem isUp_of_nextKind {master : Master} (h : .commandPoll = master.nextKind) :
    master.record.link.isUp = true := by
  unfold nextKind at h
  split at h
  · assumption
  · exact PollKind.noConfusion h

/-- Without a reply the link does not come up. -/
theorem isUp_of_unanswered {before after : Master} (hkind : before.InKind)
    (h : Unanswered before after) (hup : after.record.link.isUp = true) :
    before.record.link.isUp = true := by
  rcases h.presumes (.inl hup) with hbefore | hpoll
  · exact hbefore
  · exact isUp_of_nextKind (hkind .commandPoll hpoll)

/-- A byte that brings the link up completes the answer to a bus scan. The link
    is down, so the poll that it answers is one. -/
theorem raised_by_byte {master : Master} (hkind : master.InKind)
    (hdown : ¬master.record.link.isUp = true) {byte : UInt8} {queue : EventQueue}
    (hup : (master.hearByte byte queue).1.record.link.isUp = true) :
    ∃ outcome, master.reply? byte = some (.busScan, outcome) ∧ outcome.isSuccess = true := by
  rcases master.hearByte_cases byte queue with
    ⟨kind, outcome, frame, hphase, _, hreply, hdoes⟩ | ⟨_, hstill⟩
  · rw [hdoes] at hup
    rcases DriveRecord.isUp_of_after hup with hsuccess | hbefore
    · cases kind with
      | busScan => exact ⟨outcome, hreply, hsuccess⟩
      | commandPoll =>
          have hnext := hkind .commandPoll (by rw [hphase]; rfl)
          exact absurd (isUp_of_nextKind hnext) hdown
    · exact absurd hbefore hdown
  · exact absurd (isUp_of_unanswered hkind (unanswered_of_still hstill) hup) hdown

/-- Some byte of a run that brings the link up is the first to do so. Up to
    there the link stays down and the polls in kind. -/
theorem raised_by_bytes {master : Master} (hkind : master.InKind)
    (hdown : ¬master.record.link.isUp = true) {bytes : List UInt8} {queue : EventQueue}
    (hup : (master.hearBytes queue bytes).1.record.link.isUp = true) :
    ∃ outcome, (.busScan, outcome) ∈ master.replies bytes ∧ outcome.isSuccess = true := by
  induction bytes generalizing master queue with
  | nil => exact absurd hup hdown
  | cons byte rest ih =>
      rw [replies, hearByte_master master byte .unbounded queue]
      by_cases hnow : (master.hearByte byte queue).1.record.link.isUp = true
      · rcases raised_by_byte hkind hdown hnow with ⟨outcome, hreply, hsuccess⟩
        refine ⟨outcome, List.mem_append_left _ ?_, hsuccess⟩
        rw [hreply]
        exact List.mem_singleton_self _
      · rcases ih (inKind_hearByte hkind byte queue) hnow hup with ⟨outcome, hmem, hsuccess⟩
        exact ⟨outcome, List.mem_append_right _ hmem, hsuccess⟩

/-- A link that comes up in a call comes up through a bus scan. -/
theorem raised_by_scan {master : Master} (hkind : master.InKind)
    (hdown : ¬master.record.link.isUp = true) {call : Call}
    (hup : (master.call call .unbounded).1.record.link.isUp = true) :
    ∃ outcome, (.busScan, outcome) ∈ master.repliesTo call ∧ outcome.isSuccess = true := by
  cases call with
  | hear now bytes =>
      rw [Master.call, hear] at hup
      by_cases hempty : bytes.isEmpty = true
      · rw [if_pos hempty] at hup
        exact absurd hup hdown
      · rw [if_neg hempty] at hup
        have hstill := still_flushStale master now .unbounded
        have hheard : InKind { (master.flushStale now .unbounded).1 with lastHeard := now } :=
          inKind_of_still (inKind_of_still hkind hstill) ⟨rfl, rfl, rfl⟩
        exact raised_by_bytes hheard (by rw [hstill.link_eq]; exact hdown) hup
  -- Without bytes there is no reply, and without a reply the link does not come up.
  | _ =>
      have hbefore := isUp_of_unanswered hkind
        (unanswered_call master (fun _ _ => Call.noConfusion) .unbounded) hup
      exact absurd hbefore hdown

/-- What a link says of the drive. After any calls of a new master, in any order
    and at any times, a link that is up means that a bus scan has been answered,
    and until one has been there are bus scans. The drive is identified exactly if
    one of these answers was a response. So a drive on a link that is up is not
    identified only if there was an exception to a bus scan, and no bus scan was
    answered by anything else. For a caller who reports on each request, the poll
    under way is always of the kind that the link asks for, and each time that the
    link comes up it does so through a bus scan. -/
theorem scanned_of_linked (timing : Timing) :
    (∀ calls,
      let master := (new timing).callAll calls
      let replies := (new timing).repliesAll calls
      (master.record.link.isUp = true →
        ∃ outcome, (.busScan, outcome) ∈ replies ∧ outcome.isSuccess = true) ∧
      ((∀ outcome, (.busScan, outcome) ∈ replies → ¬outcome.isSuccess = true) →
        master.nextKind = .busScan) ∧
      (master.record.identification.isSome = true ↔
        ∃ response, (.busScan, .answered response) ∈ replies) ∧
      (master.record.link.isUp = true → master.record.identification = none →
        (∃ code, (.busScan, .excepted code) ∈ replies) ∧
          ∀ outcome, (.busScan, outcome) ∈ replies → outcome.isSuccess = true →
            ∃ code, outcome = .excepted code)) ∧
    ∀ watch, Watch.Watched timing watch →
      (∀ kind, watch.master.phase.kind? = some kind → kind = watch.master.nextKind) ∧
      ∀ call, watch.Permits call → ¬watch.master.record.link.isUp = true →
        (watch.call call).master.record.link.isUp = true →
        ∃ outcome, (.busScan, outcome) ∈ watch.master.repliesTo call ∧
          outcome.isSuccess = true := by
  refine ⟨fun calls => ?_, fun watch hwatched => ⟨inKind_of_watched hwatched, ?_⟩⟩
  · intro master replies
    have htells : Tells replies master := tells_callAll (tells_new timing) calls
    have hscanned : master.record.link.isUp = true →
        ∃ outcome, (.busScan, outcome) ∈ replies ∧ outcome.isSuccess = true := fun hup =>
      htells.scanned (.inl hup)
    refine ⟨hscanned, fun hnone => ?_, htells.identified_iff, fun hup hblank => ?_⟩
    · refine if_neg fun hup => ?_
      rcases hscanned hup with ⟨outcome, hmem, hsuccess⟩
      exact hnone outcome hmem hsuccess
    · -- A response would have left the identification behind.
      have honly : ∀ outcome, (.busScan, outcome) ∈ replies → outcome.isSuccess = true →
          ∃ code, outcome = .excepted code := by
        intro outcome hmem hsuccess
        rcases Outcome.cases_of_isSuccess hsuccess with ⟨response, rfl⟩ | hexcepted
        · have hsome := htells.identified_iff.mpr ⟨response, hmem⟩
          rw [hblank] at hsome
          exact absurd hsome Bool.false_ne_true
        · exact hexcepted
      rcases hscanned hup with ⟨outcome, hmem, hsuccess⟩
      rcases honly outcome hmem hsuccess with ⟨code, rfl⟩
      exact ⟨⟨code, hmem⟩, honly⟩
  · intro call hpermits hdown hup
    exact raised_by_scan (inKind_of_watched hwatched) hdown hup

/-- A bus scan to which the drive takes exception. The link comes up through it,
    and nobody has said anything but that. -/
theorem scanned_of_linked_excepted :
    let calls : List Call := [.poll 0 ⟨0⟩, .sent 2, .hear 8 [0x02, 0x97, 0x04, 0xBF, 0xF3]]
    ((new .standard).callAll calls).record.link.isUp = true ∧
      ((new .standard).callAll calls).record.identification = none ∧
      ∃ code, (.busScan, .excepted code) ∈ (new .standard).repliesAll calls := by
  intro calls
  have hup : ((new .standard).callAll calls).record.link.isUp = true := by decide +kernel
  have hblank : ((new .standard).callAll calls).record.identification = none := by decide +kernel
  exact ⟨hup, hblank, (((scanned_of_linked .standard).1 calls).2.2.2 hup hblank).1⟩

/-- A link to a drive that has not identified itself, for all that its caller
    reported on each request. -/
theorem not_identified :
    ∃ watch, Watch.Watched .standard watch ∧ watch.master.record.link.isUp = true ∧
      watch.master.record.identification = none ∧ watch.master.nextKind = .commandPoll := by
  have hstart : Watch.Watched .standard (.on (.new .standard)) := .start
  have hbegun := Watch.Watched.call (.poll 0 ⟨0⟩) hstart (by decide +kernel)
  have hsent := Watch.Watched.call (.sent 2) hbegun (by decide +kernel)
  have hheard := Watch.Watched.call (.hear 8 [0x02, 0x97, 0x04, 0xBF, 0xF3]) hsent
    (by decide +kernel)
  refine ⟨_, hheard, ?_, ?_, ?_⟩
  · decide +kernel
  · decide +kernel
  · decide +kernel

end Master

end DoorBus

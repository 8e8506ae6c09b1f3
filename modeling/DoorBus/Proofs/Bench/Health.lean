import DoorBus.Proofs.Bench.Speech
import DoorBus.Proofs.Bench.Trial

/-!
# A Drive in Good Health

A drive that is not told to misbehave never looks as if something were wrong,
whatever the host asks for and whichever buttons are pressed.

Before every round the line to the bridge holds what the drive has said in the
round before, and the agent awaits just that: the answer to its last request
if it has sent one, and nothing else if it has not. So each step reads all of
it, ends the poll under way, and at most begins another one, which the drive
answers in the same round. An answer is never late, since it is read in the
step behind the one that sent the request.

What the host sees is what the drive has said last. The status is read in the
step behind the one in which it was broadcast, and a step brings the mailbox up
to date.

## Main definitions

* `Drive.IsWilling`: A drive that has not been told to misbehave.
* `Drive.Says`: What such a drive says when it catches up.
* `Bench.IsHealthy`: What holds of a bench with such a drive before a round.
* `Trial.IsHealthy`: The same of a trial, and of its record.

## Theorems

* `service_says`: A willing drive answers, and broadcasts when that is due.
* `poll_serves`: What a step of the agent makes of it.
* `round_isHealthy`: A round leaves the trial healthy, and gets it under way.
* `run_isHealthy`: A healthy drive never looks unhealthy.
-/

namespace DoorBus

open Event (IsCalm)

/-! ## The drive -/

namespace Drive

/-- A drive that has not been told to misbehave. -/
structure IsWilling (drive : Drive) : Prop where
  silent_eq : drive.silent = false
  exception_eq : drive.exception = none
  noise_eq : drive.noise = []
  driveRequest_eq : drive.driveRequest = 0
  interval_pos : 0 < drive.broadcastInterval

theorem isWilling_new (bus : Bus) : (new bus).IsWilling :=
  ⟨rfl, rfl, rfl, rfl, (by decide : (0 : Millis) < 250)⟩

/-- Willingness is a matter of these five settings. -/
theorem isWilling_of_same {before after : Drive} (h : before.IsWilling)
    (hsilent : after.silent = before.silent) (hexception : after.exception = before.exception)
    (hnoise : after.noise = []) (hrequest : after.driveRequest = 0)
    (hinterval : after.broadcastInterval = before.broadcastInterval) : after.IsWilling where
  silent_eq := hsilent.trans h.silent_eq
  exception_eq := hexception.trans h.exception_eq
  noise_eq := hnoise
  driveRequest_eq := hrequest
  interval_pos := hinterval ▸ h.interval_pos

/-- A drive stays willing whatever it is told to do. -/
theorem isWilling_obey {drive : Drive} (h : drive.IsWilling) (action : ActionCode) :
    (drive.obey action).IsWilling := by
  unfold obey
  cases action.action? <;> exact isWilling_of_same h rfl rfl h.noise_eq h.driveRequest_eq rfl

theorem lastBroadcast_obey (drive : Drive) (action : ActionCode) :
    (drive.obey action).lastBroadcast = drive.lastBroadcast := by
  unfold obey
  cases action.action? <;> rfl

theorem isWilling_passOn {drive : Drive} (h : drive.IsWilling) (kind : PollKind) :
    (drive.passOn kind).IsWilling := by
  cases kind with
  | busScan => exact h
  | commandPoll => exact isWilling_of_same h rfl rfl h.noise_eq rfl rfl

theorem lastBroadcast_passOn (drive : Drive) (kind : PollKind) :
    (drive.passOn kind).lastBroadcast = drive.lastBroadcast := by
  cases kind <;> rfl

/-- A willing drive answers every request. -/
theorem answer_says {drive : Drive} {bus : Bus} {request : Option Request} (h : Waits bus request)
    (hwilling : drive.IsWilling) :
    ∃ answer : Option Response,
      answer.map Response.kind = request.map Request.kind ∧
      (∀ response ∈ answer, response.registers.length = response.kind.readQuantity.toNat ∧
        (DriveMessage.answer response).frame.HidesNone) ∧
      (drive.answer bus).2.toBridge = bus.toBridge ++
        answer.elim [] (fun response => (DriveMessage.answer response).frame.toBytes) ∧
      (drive.answer bus).1.IsWilling ∧
      (drive.answer bus).1.lastBroadcast = drive.lastBroadcast := by
  cases request with
  | none =>
      refine ⟨none, rfl, fun _ hnone => absurd hnone (Option.not_mem_none _), ?_, ?_, ?_⟩
      · rw [answer_of_none h]
        exact (List.append_nil _).symm
      · rw [answer_of_none h]
        exact hwilling
      · rw [answer_of_none h]
  | some request =>
      -- The drive obeys before it answers, and passes its action on afterwards.
      have hnoted : (drive.noted request).IsWilling :=
        isWilling_of_same hwilling rfl rfl hwilling.noise_eq hwilling.driveRequest_eq rfl
      have hobeyed := isWilling_obey hnoted request.action
      have hdone := isWilling_passOn hobeyed request.kind
      have hhandle := handle_bytes drive request
      rw [hwilling.silent_eq, hwilling.exception_eq] at hhandle
      refine ⟨some (((drive.noted request).obey request.action).respond request.kind), rfl, ?_, ?_,
        ?_, ?_⟩
      · intro response hresponse
        rw [← Option.some.inj hresponse]
        exact ⟨length_respond _ request.kind, hidesNone_answer hobeyed.driveRequest_eq request.kind⟩
      · rw [answer_of_some h hhandle]
        simp only [Option.elim_some, send, hdone.noise_eq, List.nil_append]
        rfl
      · rw [answer_of_some h hhandle]
        exact isWilling_of_same hdone rfl rfl rfl hdone.driveRequest_eq rfl
      · rw [answer_of_some h hhandle]
        exact (lastBroadcast_passOn _ request.kind).trans (lastBroadcast_obey _ request.action)

/-- A willing drive broadcasts when that is due, and only then remembers another
    time. -/
theorem broadcast_says {drive : Drive} (bus : Bus) (hwilling : drive.IsWilling) :
    ∃ status : Option DoorStatus,
      (∀ said ∈ status, said = drive.status) ∧
      (drive.broadcast bus).2.toBridge = bus.toBridge ++
        status.elim [] (fun said => (DriveMessage.status ⟨said.toRegisters⟩).frame.toBytes) ∧
      (drive.broadcast bus).1.IsWilling ∧
      (status = if (drive.broadcast bus).1.lastBroadcast = drive.lastBroadcast then none
        else some (drive.broadcast bus).1.status) ∧
      (drive.lastBroadcast = none → status.isSome = true) := by
  rw [broadcast]
  by_cases hdue : drive.isBroadcastDue bus.now = true
  · have hspeaks : (drive.isBroadcastDue bus.now && !drive.silent) = true := by
      rw [hdue, hwilling.silent_eq]
      rfl
    -- No time has passed since now, so that it cannot be the time of the last broadcast.
    have hlater : some bus.now ≠ drive.lastBroadcast := by
      intro hlast
      rw [isBroadcastDue, ← hlast] at hdue
      have hle := of_decide_eq_true hdue
      have hpos := hwilling.interval_pos
      rw [Millis.elapsed_self, UInt32.le_iff_toNat_le] at hle
      rw [UInt32.lt_iff_toNat_lt] at hpos
      omega
    rw [if_pos hspeaks]
    refine ⟨some drive.status, fun said hsaid => (Option.some.inj hsaid).symm, ?_, ?_, ?_,
      fun _ => rfl⟩
    · simp only [send, hwilling.noise_eq, List.nil_append, broadcastBytes_eq, Option.elim_some]
      rfl
    · exact isWilling_of_same hwilling rfl rfl rfl hwilling.driveRequest_eq rfl
    · exact (if_neg hlater).symm
  · have hquiet : ¬(drive.isBroadcastDue bus.now && !drive.silent) = true := by
      rw [Bool.and_eq_true]
      exact fun h => hdue h.1
    rw [if_neg hquiet]
    refine ⟨none, fun _ hnone => absurd hnone (Option.not_mem_none _), ?_, hwilling, ?_, ?_⟩
    · exact (List.append_nil _).symm
    · exact (if_pos rfl).symm
    · intro hfirst
      rw [isBroadcastDue, hfirst] at hdue
      exact absurd rfl hdue

/-- What a willing drive says when it catches up. -/
structure Says (before : Drive) (request : Option Request) (speech : Speech) (after : Drive) :
    Prop where
  isWilling : after.IsWilling
  phase_eq : speech.phase = request.elim .idle fun request => .awaiting request.kind
  status_eq : speech.status
    = if after.lastBroadcast = before.lastBroadcast then none else some after.status
  isSome_status : before.lastBroadcast = none → speech.status.isSome = true

/-- There is an answer if there was a request. -/
theorem Says.isSome_answer {before after : Drive} {request : Option Request} {speech : Speech}
    (h : before.Says request speech after) : speech.answer.isSome = request.isSome := by
  have hphase := h.phase_eq
  unfold Speech.phase at hphase
  cases hanswer : speech.answer with
  | none =>
      cases request with
      | none => rfl
      | some request =>
          rw [hanswer] at hphase
          exact absurd hphase Phase.noConfusion
  | some response =>
      cases request with
      | none =>
          rw [hanswer] at hphase
          exact absurd hphase Phase.noConfusion
      | some request => rfl

theorem service_says {drive after : Drive} {bus bus' : Bus} {request : Option Request}
    (hdoor : drive.door.IsStandard)
    (hlag : (Millis.elapsed drive.lastService bus.now).toNat ≤ 10) (h : Waits bus request)
    (hwilling : drive.IsWilling) (hempty : bus.toBridge = [])
    (hservice : drive.service bus = .ok (after, bus')) :
    ∃ speech, drive.Says request speech after ∧ bus'.toBridge = speech.bytes := by
  rcases service_eq hdoor hlag with ⟨door, hstandard, hparts⟩
  have hstarted : ({ drive with door, lastService := bus.now } : Drive).IsWilling :=
    isWilling_of_same hwilling rfl rfl hwilling.noise_eq hwilling.driveRequest_eq rfl
  rcases answer_says h hstarted with ⟨answer, hkind, hgood, hline, hanswered, hlast⟩
  have hanswerer := (answer_hears h { drive with door, lastService := bus.now }).1.isStandard
    hstandard
  rcases broadcast_says ({ drive with door, lastService := bus.now }.answer bus).2 hanswered with
    ⟨status, hsaid, hline', hbroadcast, hstatus, hfirst⟩
  rw [hparts, Except.ok.injEq] at hservice
  have hdrive := congrArg Prod.fst hservice
  have hbus := congrArg Prod.snd hservice
  simp only [] at hdrive hbus
  -- The answer hides nothing for want of a drive request, the status for the way of the door.
  refine ⟨⟨answer, status, fun response hresponse => (hgood response hresponse).1,
    fun response hresponse => (hgood response hresponse).2,
    fun said hmem => hsaid said hmem ▸ Door.isHarmless_of_isUsual hanswerer.isUsual,
    fun said hmem => hsaid said hmem ▸ Door.status_isDescribed _⟩,
    ⟨?_, ?_, ?_, fun hnone => hfirst (hlast.trans hnone)⟩, ?_⟩
  · rw [← hdrive]
    exact hbroadcast
  · have hphase : (answer.elim .idle fun response => .awaiting response.kind)
        = (answer.map Response.kind).elim Phase.idle .awaiting := by
      cases answer <;> rfl
    rw [Speech.phase, hphase, hkind]
    cases request <;> rfl
  · rw [hlast] at hstatus
    rw [← hdrive]
    exact hstatus
  · rw [← hbus, hline', hline, hempty, List.nil_append]
    rfl

end Drive

/-! ## What a speech tells -/

/-- An answer of either kind clears the fault and brings the link up. No answer
    carries a status. -/
theorem DriveRecord.after_answered (record : DriveRecord) (response : Response) :
    (record.after (.answered response)).fault = false ∧
      (record.after (.answered response)).lastStatus = record.lastStatus ∧
      (record.after (.answered response)).link.isUp = true := by
  simp only [after, learn]
  cases response.kind <;> exact ⟨rfl, rfl, rfl⟩

namespace Speech

variable (speech : Speech) {record : DriveRecord}

/-- An answer clears the fault and brings the link up, and a status is the last
    one from then on. -/
theorem record_tells (h : record.fault = false) :
    (speech.record record).fault = false ∧
      (speech.record record).lastStatus = speech.status.or record.lastStatus ∧
      (speech.record record).link.isUp = (speech.answer.isSome || record.link.isUp) := by
  unfold Speech.record recordStatus recordAnswer
  cases speech.answer with
  | none => cases speech.status <;> exact ⟨h, rfl, rfl⟩
  | some response =>
      rcases record.after_answered response with ⟨hfault, hlast, hup⟩
      cases speech.status with
      | none => exact ⟨hfault, hlast, hup⟩
      | some said => exact ⟨hfault, rfl, hup⟩

end Speech

/-! ## Benches -/

namespace Bench

/-- The record of the agent. -/
def record (bench : Bench) : DriveRecord :=
  bench.node.agent.master.record

/-- What holds before a round: the drive is willing, and what it has said is
    what the agent awaits. -/
structure IsHealthy (bench : Bench) (speech : Speech) : Prop where
  inOrder : bench.InOrder
  upToDate : bench.node.UpToDate
  isWilling : bench.drive.IsWilling
  awaits : bench.node.Awaits speech
  fault_eq : bench.record.fault = false

variable {bench : Bench} {speech : Speech}

theorem isHealthy_new (now : Millis) (mailbox : Mailbox) :
    (new now mailbox).IsHealthy .silence where
  inOrder := inOrder_new now mailbox
  upToDate := Node.upToDate_start _ _ mailbox _
  isWilling := Drive.isWilling_new _
  awaits := ⟨⟨rfl, rfl⟩, rfl⟩
  fault_eq := rfl

/-- A host that leaves the status words alone leaves the bench healthy. -/
theorem isHealthy_withMailbox (h : bench.IsHealthy speech) {mailbox : Mailbox}
    (hkeeps : bench.node.mailbox.KeepsStatus mailbox) :
    (bench.withMailbox mailbox).IsHealthy speech where
  inOrder := inOrder_withMailbox h.inOrder mailbox
  upToDate := ⟨hkeeps.trans h.upToDate.status_eq, h.upToDate.published_eq⟩
  isWilling := h.isWilling
  awaits := ⟨h.awaits.master, h.awaits.line_eq⟩
  fault_eq := h.fault_eq

/-- Ordinary use is of this sort: it posts, withdraws or reads codes, or presses
    a button at the drive. -/
theorem isHealthy_use (h : bench.IsHealthy speech) (usage : Usage) :
    (bench.use usage).IsHealthy speech := by
  cases usage with
  | enqueue code => exact isHealthy_withMailbox h rfl
  | cancel => exact isHealthy_withMailbox h rfl
  | takeRequest => exact isHealthy_withMailbox h rfl
  | press action =>
      have hwilling : (bench.drive.press action).IsWilling :=
        Drive.isWilling_of_same h.isWilling rfl rfl h.isWilling.noise_eq
          h.isWilling.driveRequest_eq rfl
      exact ⟨inOrder_use h.inOrder (.press action), h.upToDate, hwilling, h.awaits, h.fault_eq⟩

/-! ## The step of the agent -/

/-- What the step of the agent makes of what the drive has said. -/
structure Serves (bench : Bench) (speech : Speech) (after : Bench) : Prop where
  asks : bench.Asks after
  heeds : bench.node.Heeds speech after.node
  upToDate : after.node.UpToDate
  calm : ∀ event ∈ bench.notes, event.IsCalm
  fault_eq : after.record.fault = false
  lastStatus_eq : after.record.lastStatus = speech.status.or bench.record.lastStatus
  isUp_eq : after.record.link.isUp = (speech.answer.isSome || bench.record.link.isUp)

/-- The step makes of the speech just what the speech tells, and notes nothing
    else. -/
theorem poll_serves (h : bench.IsHealthy speech) :
    bench.Serves speech (bench.poll (.new 2)).1 := by
  have hrest := Node.atRest_of_reachable h.inOrder.reachable
  have hworks := h.inOrder.isOpen.failWrites_eq
  have hpolicy := Node.policy_of_reachable h.inOrder.reachable
  have hheeds := Node.step_heeds hrest hpolicy hworks h.awaits
  have hrecord : (bench.poll (.new 2)).1.record = speech.record bench.record := hheeds.record_eq
  rcases speech.record_tells h.fault_eq with ⟨hfault, hlast, hup⟩
  rw [← hrecord] at hfault hlast hup
  exact ⟨poll_asks h.inOrder, hheeds, Node.upToDate_step hrest h.upToDate hardware,
    Node.work_calm hrest hworks h.awaits, hfault, hlast, hup⟩

/-- The host sees the status that was said last, as it was said. -/
theorem Serves.currentStatus_eq {after : Bench} (h : bench.Serves speech after)
    {said : DoorStatus} (hsaid : after.record.lastStatus = some said) :
    after.node.mailbox.currentStatus = said := by
  have hshown := Node.snapshot_of_upToDate h.asks.reachable h.upToDate
  have hstatus : after.record.status = said := by
    rw [DriveRecord.status, hsaid, h.fault_eq]
    rfl
  rw [Mailbox.currentStatus, hshown, ← hstatus]
  rfl

theorem Serves.isConnected_eq {after : Bench} (h : bench.Serves speech after) :
    after.node.mailbox.isConnected = after.record.link.isUp := by
  rw [Mailbox.isConnected, Node.snapshot_of_upToDate h.asks.reachable h.upToDate]
  rfl

/-! ## The drive catches up -/

/-- What a bench does when its drive catches up. -/
theorem eq_of_service {after : Bench} (h : bench.service = .ok after) :
    bench.drive.service bench.node.hardware = .ok (after.drive, after.node.hardware) ∧
      after.node.agent = bench.node.agent ∧ after.node.mailbox = bench.node.mailbox := by
  rw [service] at h
  cases hdrive : bench.drive.service bench.node.hardware with
  | error fault =>
      rw [hdrive] at h
      have hfault : Except.error fault = Except.ok after := h
      exact absurd hfault (by simp only [reduceCtorEq, not_false_eq_true])
  | ok served =>
      rw [hdrive] at h
      rw [← Except.ok.inj h]
      exact ⟨rfl, rfl, rfl⟩

/-- The drive catches up without a fault, and says the next speech. So the bench
    is healthy again. -/
theorem service_isHealthy {asked : Bench} (h : bench.IsHealthy speech)
    (hserves : bench.Serves speech asked) :
    ∃ after next, asked.service = .ok after ∧ (after.advance 1).IsHealthy next ∧
      asked.drive.Says bench.asks? next after.drive ∧ after.record = asked.record := by
  rcases service_hears h.inOrder hserves.asks with ⟨after, hservice, hhears⟩
  rcases eq_of_service hservice with ⟨hdrive, hagent, hmailbox⟩
  -- The door has been looked after in time, which is what keeps its arithmetic
  -- sound.
  rcases hserves.asks.isPunctual h.inOrder with ⟨hdoor, hlag⟩
  have hwilling : asked.drive.IsWilling := by
    rw [hserves.asks.drive_eq]
    exact h.isWilling
  rcases Drive.service_says hdoor hlag hserves.asks.waits hwilling hserves.heeds.line_eq hdrive with
    ⟨next, hspoken, hline⟩
  -- The agent is as its step has left it, and the line holds what it awaits.
  have hmaster := congrArg Agent.master hagent
  have hrecord : after.record = asked.record := congrArg Master.record hmaster
  refine ⟨after, next, hservice,
    ⟨hhears.inOrder, ⟨?_, ?_⟩, hspoken.isWilling, ⟨⟨?_, ?_⟩, hline⟩, ?_⟩, hspoken, hrecord⟩
  · have hstatus := hserves.upToDate.status_eq
    rw [← hagent, ← hmailbox] at hstatus
    exact hstatus
  · have hpublished := hserves.upToDate.published_eq
    rw [← hagent] at hpublished
    exact hpublished
  · exact (congrArg Master.receiver hmaster).trans hserves.heeds.receiver_eq
  · exact (congrArg Master.phase hmaster).trans (hserves.heeds.phase_eq.trans hspoken.phase_eq.symm)
  · exact (congrArg DriveRecord.fault hrecord).trans hserves.fault_eq

end Bench

/-! ## Trials -/

namespace Trial

/-- The bench is healthy, all that was noted is calm, and the drive has either
    said its status just now, or it has been heard. -/
structure IsHealthy (trial : Trial) (speech : Speech) : Prop where
  bench : trial.bench.IsHealthy speech
  calm : ∀ event ∈ trial.notes, event.IsCalm
  told_eq : trial.told = speech.status.or trial.bench.record.lastStatus

/-- Nothing has happened yet. -/
structure IsFresh (trial : Trial) : Prop where
  lastPoll_eq : trial.bench.node.agent.master.lastPoll = none
  lastBroadcast_eq : trial.bench.drive.lastBroadcast = none

/-- The link is up, or it comes up in the next step, and there has been a
    broadcast. -/
structure IsUnderWay (trial : Trial) (speech : Speech) : Prop where
  links : (speech.answer.isSome || trial.bench.record.link.isUp) = true
  isTold : trial.told.isSome = true

variable {trial : Trial} {speech : Speech}

theorem isHealthy_new (now : Millis) (mailbox : Mailbox) :
    (new now mailbox).IsHealthy .silence where
  bench := Bench.isHealthy_new now mailbox
  calm := List.forall_mem_nil _
  told_eq := rfl

theorem isHealthy_meet (h : trial.IsHealthy speech) (usage : Usage) :
    (trial.meet (.usage usage)).IsHealthy speech := by
  have hrecord : (trial.bench.use usage).record = trial.bench.record := by
    cases usage <;> rfl
  have htold := h.told_eq
  rw [← hrecord] at htold
  exact ⟨Bench.isHealthy_use h.bench usage, h.calm, htold⟩

/-- Ordinary use leaves the trial healthy, and does not touch the agent, nor
    the time of the last broadcast. -/
theorem meetAll_isHealthy (h : trial.IsHealthy speech) (usages : List Usage) :
    (trial.meetAll (usages.map .usage)).IsHealthy speech ∧
      (trial.meetAll (usages.map .usage)).bench.node.agent = trial.bench.node.agent ∧
      (trial.meetAll (usages.map .usage)).bench.drive.lastBroadcast
        = trial.bench.drive.lastBroadcast ∧
      (trial.meetAll (usages.map .usage)).told = trial.told := by
  refine meetAll_keeps (fun met => met.IsHealthy speech ∧
    met.bench.node.agent = trial.bench.node.agent ∧
    met.bench.drive.lastBroadcast = trial.bench.drive.lastBroadcast ∧ met.told = trial.told)
    (fun met incident hmem hmet => ?_) ⟨h, rfl, rfl, rfl⟩
  rcases hmet with ⟨hhealthy, hagent, hlast, htold⟩
  -- No usage gets at the agent, and only the drive itself broadcasts.
  rcases List.mem_map.mp hmem with ⟨usage, _, rfl⟩
  refine ⟨isHealthy_meet hhealthy usage, ?_, ?_, htold⟩
  · rw [← hagent]
    cases usage <;> rfl
  · rw [← hlast]
    cases usage <;> rfl

theorem calm_poll (h : trial.IsHealthy speech) : ∀ event ∈ trial.poll.notes, event.IsCalm :=
  List.forall_mem_append.mpr ⟨h.calm, (Bench.poll_serves h.bench).calm⟩

/-- A round leaves the trial healthy, and gets it under way. -/
theorem round_isHealthy (h : trial.IsHealthy speech) (usages : List Usage) :
    ∃ after next, trial.round (usages.map .usage) = .ok after ∧ after.IsHealthy next ∧
      (trial.IsFresh ∨ trial.IsUnderWay speech → after.IsUnderWay next) := by
  rcases meetAll_isHealthy h usages with ⟨hmet, hagent, hbroadcast, htold⟩
  have hserves := Bench.poll_serves hmet.bench
  rcases Bench.service_isHealthy hmet.bench hserves with
    ⟨after, next, hservice, hhealthy, hspoken, hrecord⟩
  have hlast : after.record.lastStatus = (trial.meetAll (usages.map .usage)).told := by
    rw [hrecord, hserves.lastStatus_eq, hmet.told_eq]
  have hnext : (trial.meetAll (usages.map .usage)).poll.toldBy after
      = next.status.or after.record.lastStatus := by
    by_cases hquiet : after.drive.lastBroadcast
        = (trial.meetAll (usages.map .usage)).poll.bench.drive.lastBroadcast
    · -- Without a broadcast, what was said last has just been read.
      have hnone : next.status = none := hspoken.status_eq.trans (if_pos hquiet)
      rw [hnone, Option.none_or, hlast]
      exact if_pos hquiet
    · have hsome : next.status = some after.drive.status := hspoken.status_eq.trans (if_neg hquiet)
      rw [hsome, Option.some_or]
      exact if_neg hquiet
  refine ⟨_, next, round_of_ok hservice, ⟨hhealthy, calm_poll hmet, hnext⟩, ?_⟩
  rintro (hfresh | hunder)
  · -- The first step begins a poll, and the drive answers it and broadcasts.
    have hasks : (trial.meetAll (usages.map .usage)).bench.asks?.isSome = true := by
      refine Node.isSome_asks_of_new (Node.atRest_of_reachable hmet.bench.inOrder.reachable)
        hmet.bench.awaits ?_
      rw [hagent]
      exact hfresh.lastPoll_eq
    have hstatus := hspoken.isSome_status (hbroadcast.trans hfresh.lastBroadcast_eq)
    refine ⟨?_, ?_⟩
    · rw [hspoken.isSome_answer, hasks, Bool.true_or]
    · rw [hnext, Option.isSome_or, hstatus, Bool.true_or]
  · have hup : after.record.link.isUp = true := by
      have hsame : (trial.meetAll (usages.map .usage)).bench.record = trial.bench.record :=
        congrArg (fun agent => agent.master.record) hagent
      rw [hrecord, hserves.isUp_eq, hsame]
      exact hunder.links
    have hrecorded : (after.advance 1).record = after.record := rfl
    refine ⟨?_, ?_⟩
    · rw [hrecorded, hup, Bool.or_true]
    · rw [hnext, hlast, htold, Option.isSome_or, hunder.isTold, Bool.or_true]

/-- Behind the first round the trial is under way. -/
theorem run_isUnderWay (now : Millis) (mailbox : Mailbox) (rounds : List (List Usage)) :
    ∃ trial speech,
      (new now mailbox).run (rounds.map fun round => round.map .usage) = .ok trial ∧
      trial.IsHealthy speech ∧ (rounds ≠ [] → trial.IsUnderWay speech) := by
  cases rounds with
  | nil => exact ⟨_, .silence, rfl, isHealthy_new now mailbox, fun hne => absurd rfl hne⟩
  | cons first rounds =>
      rcases round_isHealthy (isHealthy_new now mailbox) first with
        ⟨middle, next, hround, hhealthy, hunder⟩
      -- The first round gets the trial under way, and the others keep it there.
      have hkeeps := @run_keeps
        (fun trial => ∃ speech, trial.IsHealthy speech ∧ trial.IsUnderWay speech)
        (rounds.map fun round => round.map .usage) ?_ middle
        ⟨next, hhealthy, hunder (.inl ⟨rfl, rfl⟩)⟩
      · rcases hkeeps with ⟨trial, hrun, speech, hkept, hgoing⟩
        exact ⟨trial, speech, (run_cons_of_ok hround _).trans hrun, hkept, fun _ => hgoing⟩
      · rintro trial incidents hmem ⟨speech, hbefore, hgoing⟩
        rcases List.mem_map.mp hmem with ⟨usages, _, rfl⟩
        rcases round_isHealthy hbefore usages with ⟨after, later, hlater, hkept, hunder'⟩
        exact ⟨after, hlater, later, hkept, hunder' (.inr hgoing)⟩

/-- A healthy drive never looks unhealthy. Start a bench at any time, with any
    memory, and run it for any number of rounds. Before each of them, let the
    host ask for any actions, take them back and take drive requests, and let
    any buttons on the wall be pressed. That is never a fault. Let the same
    happen once more, and then let the agent take a step.

    Neither this step nor any before it has noted a timeout, a lost link, an
    answer or a status that was rejected, a frame that was dropped or a late
    answer, not even where the queue had no room for it. The step has read all
    that was on the line. From the second step on the link is up, the mailbox
    says so, and the host finds the status in it that the drive has broadcast
    last. -/
theorem run_isHealthy (now : Millis) (mailbox : Mailbox) (rounds : List (List Usage))
    (usages : List Usage) :
    ∃ trial : Trial,
      (new now mailbox).run (rounds.map fun round => round.map .usage) = .ok trial ∧
      let after := (trial.meetAll (usages.map .usage)).poll
      (∀ event ∈ after.notes, event.isTrouble = false) ∧
      after.bench.node.hardware.toBridge = [] ∧
      (rounds ≠ [] → after.bench.record.link.isUp = true ∧
        after.bench.node.mailbox.isConnected = true ∧
        after.told = some after.bench.node.mailbox.currentStatus) := by
  rcases run_isUnderWay now mailbox rounds with ⟨trial, speech, hrun, hhealthy, hunder⟩
  rcases meetAll_isHealthy hhealthy usages with ⟨hmet, hagent, _, hsame⟩
  have hserves := Bench.poll_serves hmet.bench
  refine ⟨trial, hrun, calm_poll hmet, hserves.heeds.line_eq, fun hne => ?_⟩
  have hup : (trial.meetAll (usages.map .usage)).poll.bench.record.link.isUp = true := by
    have hrecord : (trial.meetAll (usages.map .usage)).bench.record = trial.bench.record :=
      congrArg (fun agent => agent.master.record) hagent
    have hlinks := (hunder hne).links
    rw [← hrecord, ← hserves.isUp_eq] at hlinks
    exact hlinks
  rcases Option.isSome_iff_exists.mp (hunder hne).isTold with ⟨said, hsaid⟩
  -- The status that was told last has been heard in this step at the latest.
  have hlast : (trial.meetAll (usages.map .usage)).poll.bench.record.lastStatus = some said := by
    rw [← hsaid, ← hsame, hmet.told_eq]
    exact hserves.lastStatus_eq
  have hafter : (trial.meetAll (usages.map .usage)).poll.told = some said := hsame.trans hsaid
  refine ⟨hup, hserves.isConnected_eq.trans hup, ?_⟩
  rw [hafter, ← hserves.currentStatus_eq hlast]
  rfl

end Trial

end DoorBus

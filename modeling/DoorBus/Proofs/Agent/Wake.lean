import Mathlib.Logic.Basic
import DoorBus.Proofs.Agent.Logbook
import DoorBus.Proofs.Agent.View

/-!
# What the Host Is Woken For

A host that sleeps knows of the door what the mailbox said when it was woken
last. That may be out of date in the position of the door, but not in its
coarse state and not in whether the link is up: when one of these changes, the
host is woken in the same step. It is not woken for anything else but a
request of the drive.

An agent decides this by comparing two snapshots, the one that it has written
last and the new one. What the host can see is the status word. So the two have
to go together, between any two steps, for which nobody else may write to the
word. Then whatever the agent compares is what the host finds, and what holds
of one step holds of all of them, since a step without a wake has changed
nothing of what the host knows.

The mailbox is written before the host is woken. What the host finds in it
stands in the log of the hardware.

## Main definitions

* `Snapshot.coarse`: What the host is woken for if it changes.
* `Mailbox.KeepsStatus`: Nobody has written to the status word.
* `Node.UpToDate`: The word goes with what the master knows.
* `Desk.scanned`: An agent whose first poll is about to be answered.

## Theorems

* `shouldWake_iff`: What the policy of the small core comes to.
* `upToDate_step`: A step brings the word up to date.
* `stepWakes_eq`: A step compares what the master knew with what it knows.
* `knows_of_leads`: The host knows the coarse state and the link.
* `step_wakes`: What a step does about the host.
* `step_wakes_scan`: A host that learns of the link, and of nothing else.
-/

namespace DoorBus

/-- What the host is woken for if it changes. -/
def Snapshot.coarse (snapshot : Snapshot) : DoorState × Bool :=
  (snapshot.status.state, snapshot.connected)

/-- Nobody has written to the status word. -/
def Mailbox.KeepsStatus (before after : Mailbox) : Prop :=
  after.status = before.status

/-- The host is woken if the coarse state or the link changes, or if the drive
    asks for something. -/
theorem WakePolicy.shouldWake_iff {before after : Snapshot} {events : List Event} :
    onTransition.shouldWake before after events = true ↔
      after.coarse ≠ before.coarse ∨ ∃ code, .driveRequest code ∈ events := by
  have hrequest : (events.any fun event => event.driveRequest?.isSome) = true ↔
      ∃ code, .driveRequest code ∈ events := by
    rw [List.any_eq_true]
    constructor
    · rintro ⟨event, hevent, hsome⟩
      rcases Option.isSome_iff_exists.mp hsome with ⟨code, hcode⟩
      exact ⟨code, eq_of_driveRequest hcode ▸ hevent⟩
    · rintro ⟨code, hcode⟩
      exact ⟨.driveRequest code, hcode, rfl⟩
  have hcoarse : after.coarse ≠ before.coarse ↔
      before.status.state ≠ after.status.state ∨ before.connected ≠ after.connected := by
    rw [Snapshot.coarse, Snapshot.coarse, ne_eq, Prod.mk.injEq, not_and_or]
    exact or_congr ne_comm ne_comm
  rw [shouldWake, Bool.or_eq_true, Bool.or_eq_true, bne_iff_ne, bne_iff_ne, hrequest, hcoarse]

namespace Node

variable {σ : Type} {node : Node σ}

/-! ## Reporting -/

/-- Handing on drive requests does not concern the status word. -/
theorem status_reportRequests (mailbox : Mailbox) (events : List Event) :
    (reportRequests mailbox events).status = mailbox.status := by
  rw [reportRequests]
  induction events.filterMap Event.driveRequest? generalizing mailbox with
  | nil => rfl
  | cons code codes ih => exact ih (mailbox.publishDriveRequest code)

/-- Of several requests the last one stays. -/
theorem driveRequest_reportRequests (mailbox : Mailbox) {events : List Event} {code : UInt16}
    (h : (events.filterMap Event.driveRequest?).getLast? = some code) :
    (reportRequests mailbox events).driveRequest = code.toUInt32 := by
  rcases List.getLast?_eq_some_iff.mp h with ⟨codes, hcodes⟩
  rw [reportRequests, hcodes, List.foldl_append]
  rfl

/-- The word is written if it has to be. -/
theorem status_report (h : node.mailbox.status = node.agent.published.toWord) (hw : Hardware σ)
    (events : List Event) :
    (node.report hw events).mailbox.status = node.agent.master.snapshot.toWord := by
  rw [report]
  by_cases hsame : node.agent.master.snapshot = node.agent.published
  · simp only [if_pos hsame]
    rw [status_reportRequests, h, hsame]
  · simp only [if_neg hsame]
    rfl

/-! ## Steps -/

/-- What stands in the word is what the agent remembers to have written, and
    that is what its master knows. -/
structure UpToDate (node : Node σ) : Prop where
  status_eq : node.mailbox.status = node.agent.published.toWord
  published_eq : node.agent.published = node.agent.master.snapshot

/-- An agent that starts writes the word before it does anything else. -/
theorem upToDate_start (timing : Timing) (policy : WakePolicy) (mailbox : Mailbox)
    (hardware : σ) : (start timing policy mailbox hardware).UpToDate :=
  ⟨rfl, rfl⟩

/-- Up to its report, a step changes neither the word nor what the agent
    remembers of it. -/
theorem work_upToDate (hrest : node.AtRest) (h : node.UpToDate) (hw : Hardware σ) :
    (node.work hw .empty).1.mailbox.status = (node.work hw .empty).1.agent.published.toWord ∧
      (node.work hw .empty).1.agent.published = node.agent.master.snapshot ∧
      (node.work hw .empty).1.agent.policy = node.agent.policy := by
  have hworks := work_works hw (Watch.inStep_on hrest.settled) hrest.owes_eq node rfl
  have hstatus := congrArg Mailbox.status hworks.mailbox_eq
  rw [work_eq hrest, hworks.agent_eq]
  exact ⟨hstatus.trans h.status_eq, h.published_eq, rfl⟩

/-- With the report, the word has caught up with the master. -/
theorem upToDate_step (hrest : node.AtRest) (h : node.UpToDate) (hw : Hardware σ) :
    (node.step hw).1.UpToDate := by
  rcases work_upToDate hrest h hw with ⟨hstatus, _, _⟩
  exact ⟨status_report hstatus hw (node.work hw .empty).2.events, rfl⟩

theorem policy_step (hrest : node.AtRest) (hw : Hardware σ) :
    (node.step hw).1.agent.policy = node.agent.policy := by
  have hworks := work_works hw (Watch.inStep_on hrest.settled) hrest.owes_eq node rfl
  rw [step_of_atRest hrest, report, hworks.agent_eq]

/-- A step compares what the master knew before it with what it knows
    afterwards. -/
theorem stepWakes_eq (hrest : node.AtRest) (h : node.UpToDate) (hw : Hardware σ) :
    node.stepWakes hw = node.agent.policy.shouldWake node.agent.master.snapshot
      (node.step hw).1.agent.master.snapshot (node.step hw).2 := by
  rcases work_upToDate hrest h hw with ⟨_, hpublished, hpolicy⟩
  rw [stepWakes, wakes, hpublished, hpolicy]
  rfl

/-- The code of the last request that is reported stands in the slot. -/
theorem driveRequest_step (hw : Hardware σ) (node : Node σ) {code : UInt16}
    (h : ((node.step hw).2.filterMap Event.driveRequest?).getLast? = some code) :
    (node.step hw).1.mailbox.driveRequest = code.toUInt32 := by
  rw [step_eq, driveRequest_report]
  exact driveRequest_reportRequests _ h

/-- Between two steps the host reads the snapshot of the master. -/
theorem snapshot_of_upToDate {hw : Hardware σ} {timing : Timing} {policy : WakePolicy}
    (hreachable : Reachable hw timing policy node) (h : node.UpToDate) :
    node.mailbox.snapshot = node.agent.master.snapshot := by
  rcases watched_of_reachable hreachable with ⟨watch, hwatched, hmaster, _⟩
  rw [Mailbox.snapshot, h.status_eq, h.published_eq, hmaster]
  exact Watch.ofWord_toWord_of_watched hwatched

/-- The policy is chosen at the start, and nothing changes it. -/
theorem policy_of_reachable {hw : Hardware σ} {timing : Timing} {policy : WakePolicy}
    (h : Reachable hw timing policy node) : node.agent.policy = policy := by
  induction h with
  | start mailbox hardware => rfl
  | step hbefore ih => exact (policy_step (atRest_of_reachable hbefore) hw).trans ih
  | other mailbox hardware _ ih => exact ih

/-! ## Runs -/

section

variable {hw : Hardware σ} {timing : Timing} {policy : WakePolicy} {mailbox : Mailbox}
  {hardware : σ} {node : Node (σ × Log)}

/-- As long as nobody else writes to the word, it is up to date between any two
    steps. -/
theorem upToDate_of_leads (h : Leads hw Mailbox.KeepsStatus
    ((start timing policy mailbox hardware).within {}) node) : node.bare.UpToDate := by
  induction h with
  | start => exact upToDate_start timing policy mailbox hardware
  | step hbefore ih =>
      rw [step_logged]
      exact upToDate_step (atRest_of_reachable (reachable_of_leads hbefore)) ih hw
  | other mailbox hardware _ hkeeps ih => exact ⟨hkeeps.trans ih.status_eq, ih.published_eq⟩

/-- Whether a step wakes the host, by what the host can see. -/
theorem stepWakes_iff (h : Leads hw Mailbox.KeepsStatus
    ((start timing .onTransition mailbox hardware).within {}) node) :
    node.bare.stepWakes hw = true ↔
      (node.bare.step hw).1.mailbox.snapshot.coarse ≠ node.mailbox.snapshot.coarse ∨
        ∃ code, .driveRequest code ∈ (node.bare.step hw).2 := by
  have hreachable := reachable_of_leads h
  have hrest := atRest_of_reachable hreachable
  have hbefore := upToDate_of_leads h
  -- Before the step and behind it, what the master knows is what stands in the word.
  have hshown := snapshot_of_upToDate hreachable hbefore
  have hseen : node.mailbox.snapshot = node.bare.agent.master.snapshot := hshown
  rw [stepWakes_eq hrest hbefore, policy_of_reachable hreachable, WakePolicy.shouldWake_iff, hseen,
    snapshot_of_upToDate (.step hreachable) (upToDate_step hrest hbefore hw)]

/-- The host knows the coarse state and the link from the last time that it
    was woken, or from the start. -/
theorem knows_of_leads (h : Leads hw Mailbox.KeepsStatus
    ((start timing .onTransition mailbox hardware).within {}) node) :
    node.mailbox.snapshot.coarse = (node.log.wakes.getLast?.getD
      (start timing .onTransition mailbox hardware).mailbox).snapshot.coarse := by
  induction h with
  | start => rfl
  | @step node hbefore ih =>
      rw [step_logged]
      by_cases hwakes : node.bare.stepWakes hw = true
      · -- The host is woken with the mailbox as it is left.
        simp only [within, log, if_pos hwakes, List.getLast?_concat, Option.getD_some]
      · -- Nothing that the host knows has changed.
        have hsame := mt (stepWakes_iff hbefore).mpr hwakes
        rw [not_or, not_not] at hsame
        simp only [within, log, if_neg hwakes, List.append_nil]
        exact hsame.1.trans ih
  | other mailbox hardware _ hkeeps ih =>
      have hsame : mailbox.snapshot = _ := congrArg Snapshot.ofWord hkeeps
      exact (congrArg Snapshot.coarse hsame).trans ih

/-- An agent whose host calls it never has to wake it. -/
theorem wakes_of_never (h : Leads hw Mailbox.KeepsStatus
    ((start timing .never mailbox hardware).within {}) node) : node.log.wakes = [] := by
  induction h with
  | start => rfl
  | @step node hbefore ih =>
      have hreachable := reachable_of_leads hbefore
      have hasleep : node.bare.stepWakes hw = false := by
        rw [stepWakes_eq (atRest_of_reachable hreachable) (upToDate_of_leads hbefore),
          policy_of_reachable hreachable]
        rfl
      rw [step_logged, hasleep]
      exact (List.append_nil _).trans ih
  | other mailbox hardware _ _ ih => exact ih

/-- What the host is woken for. Take an agent with any timing and either
    policy, on any memory, and anything that agent, host and hardware do from
    its start on, but that nobody else writes to the status word. Let the agent
    take a step.

    If it never wakes the host, then it never has. Otherwise the host is woken
    once at most. It is woken if the coarse state or the link in the mailbox is
    another than before the step, or if the step reports a request of the
    drive, and not otherwise. The mailbox that it finds holds what the master
    knows behind the step, and the code of the last such request. And coarse
    state and link in the mailbox are those that the host found when it was
    woken last, or those from the start if it has not been woken yet. -/
theorem step_wakes (h : Leads hw Mailbox.KeepsStatus
    ((start timing policy mailbox hardware).within {}) node) :
    let first := (start timing policy mailbox hardware).mailbox
    let after := (node.step hw.logged).1
    let events := (node.step hw.logged).2
    (policy = .never → after.log.wakes = []) ∧
    (policy = .onTransition →
      after.mailbox.snapshot.coarse = (after.log.wakes.getLast?.getD first).snapshot.coarse ∧
      ∃ woken, after.log.wakes = node.log.wakes ++ woken ∧ woken.length ≤ 1 ∧
        (woken ≠ [] ↔ after.mailbox.snapshot.coarse ≠ node.mailbox.snapshot.coarse ∨
          ∃ code, .driveRequest code ∈ events) ∧
        ∀ found ∈ woken, found.snapshot = after.agent.master.snapshot ∧
          ∀ code, (events.filterMap Event.driveRequest?).getLast? = some code →
            found.driveRequest = code.toUInt32) := by
  intro first after events
  refine ⟨?_, ?_⟩
  · rintro rfl
    exact wakes_of_never (.step h)
  · rintro rfl
    have hreachable := reachable_of_leads h
    have hshown := snapshot_of_upToDate (.step hreachable)
      (upToDate_step (atRest_of_reachable hreachable) (upToDate_of_leads h) hw)
    have hiff := stepWakes_iff h
    have hstep := step_logged hw node
    have hevents : events = (node.bare.step hw).2 := congrArg Prod.snd hstep
    have hafter : after = _ := congrArg Prod.fst hstep
    refine ⟨knows_of_leads (.step h),
      if node.bare.stepWakes hw then [(node.bare.step hw).1.mailbox] else [], ?_, ?_, ?_, ?_⟩
    · rw [hafter]
      rfl
    · by_cases hwakes : node.bare.stepWakes hw = true
      · rw [if_pos hwakes]
        exact Nat.le_refl 1
      · rw [if_neg hwakes]
        exact Nat.zero_le 1
    · rw [hevents, hafter]
      refine Iff.trans ?_ hiff
      by_cases hwakes : node.bare.stepWakes hw = true
      · rw [if_pos hwakes]
        exact iff_of_true (List.cons_ne_nil _ _) hwakes
      · rw [if_neg hwakes]
        exact iff_of_false (fun hne => hne rfl) hwakes
    · intro found hfound
      -- Only the mailbox that the step leaves behind can be the one that is found.
      have hleft : found = (node.bare.step hw).1.mailbox := by
        by_cases hwakes : node.bare.stepWakes hw = true
        · rw [if_pos hwakes] at hfound
          exact List.mem_singleton.mp hfound
        · rw [if_neg hwakes] at hfound
          exact absurd hfound List.not_mem_nil
      rw [hleft, hafter, hevents]
      exact ⟨hshown, fun code hcode => driveRequest_step hw node.bare hcode⟩

end

end Node

/-- An agent whose first poll is about to be answered. -/
def Desk.scanned : Node (Desk × Log) :=
  let started := Node.start (.ofMode .lowPower) .onTransition .new ({ clock := 1000 } : Desk)
  let asked := ((started.within {}).step Desk.hardware.logged).1
  { asked with hardware := ({ clock := 1010, waiting := Desk.scanAnswer }, asked.log) }

namespace Node

open Desk (scanned)

/-- The answer to the first poll brings the link up, for which the host is
    woken. -/
theorem step_wakes_scan :
    scanned.log.wakes = [] ∧
      (scanned.step Desk.hardware.logged).1.mailbox.snapshot.coarse = (.unknown, true) ∧
      ∃ found, (scanned.step Desk.hardware.logged).1.log.wakes = [found] ∧
        found.snapshot = (scanned.step Desk.hardware.logged).1.agent.master.snapshot := by
  have hleads : Leads Desk.hardware Mailbox.KeepsStatus
      ((start (.ofMode .lowPower) .onTransition .new ({ clock := 1000 } : Desk)).within {})
      scanned :=
    .other _ _ (.step .start) rfl
  rcases (step_wakes hleads).2 rfl with ⟨_, woken, hwoken, hlength, hiff, hfound⟩
  have hnone : scanned.log.wakes = [] := by decide +kernel
  have hcoarse : (scanned.step Desk.hardware.logged).1.mailbox.snapshot.coarse
      = (.unknown, true) := by decide +kernel
  have hbefore : scanned.mailbox.snapshot.coarse = (.unknown, false) := by decide +kernel
  rw [hnone, List.nil_append] at hwoken
  refine ⟨hnone, hcoarse, ?_⟩
  -- The link is up now, and was not before.
  have hne : woken ≠ [] := by
    refine hiff.mpr (.inl ?_)
    rw [hcoarse, hbefore]
    exact fun hsame => Bool.noConfusion (Prod.mk.inj hsame).2
  rcases List.exists_cons_of_ne_nil hne with ⟨found, more, rfl⟩
  have hmore : more = [] :=
    List.length_eq_zero_iff.mp (Nat.le_zero.mp (Nat.le_of_succ_le_succ hlength))
  rw [hmore] at hwoken
  exact ⟨found, hwoken, (hfound found List.mem_cons_self).1⟩

end Node

end DoorBus

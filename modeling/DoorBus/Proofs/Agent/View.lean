import DoorBus.Proofs.Agent.DriveRequest
import DoorBus.Proofs.Agent.Exchange
import DoorBus.Proofs.Mailbox.StatusWord
import DoorBus.Proofs.Master.Snapshot

/-!
# The Host Sees What the Agent Knows

What the host unpacks from the status word is the snapshot of the master, field
by field, whenever the agent is not in the middle of a step. Three facts come
together for that.

The agent writes the word only if the snapshot differs from the one that it
remembers to have written. So the word has to hold what the agent remembers,
whatever was in memory before, and no use of the mailbox by the host may touch
it. Behind each report the agent remembers the snapshot of the master. And
although the word does not keep every snapshot, it keeps every snapshot that a
run of the master leads to, as each status in it comes from the drive.

## Main definitions

* `Stage.isCurrent`: The report of the step has been made.
* `Exchange.Shows`: What the agent remembers stands in the word.

## Theorems

* `smallCore_found`: What a host finds where a small core has started.
* `ofWord_toWord_of_watched`: The word keeps the snapshot of a run.
* `shows_move`, `shows_run`: The word goes with what the agent remembers.
* `snapshot_of_shows`, `snapshot_step`: The word is what the master knows.
* `snapshot_of_run`: The host sees what the agent knows.
* `snapshot_of_run_fault`: A fault that is seen before any status.
-/

namespace DoorBus

/-- The word keeps the snapshot of a run, since every status in it was heard
    from the drive. -/
theorem Watch.ofWord_toWord_of_watched {timing : Timing} {watch : Watch}
    (h : Watched timing watch) :
    Snapshot.ofWord watch.master.snapshot.toWord = watch.master.snapshot := by
  refine Snapshot.ofWord_toWord_record fun status hstatus => ?_
  rw [lastStatus_of_watched h] at hstatus
  exact isDescribed_of_mem_statuses (List.mem_of_getLast? hstatus)

/-- What a host finds where a small core has started. Memory that had been set up
    keeps what waits in it, and other memory has nothing waiting, whatever it
    held. Either way nothing is known of the drive yet. -/
theorem Node.smallCore_found {σ : Type} (timing : Timing) (mailbox : Mailbox) (hardware : σ) :
    let found := (smallCore timing mailbox hardware).mailbox
    found.isInitialised = true ∧ found.snapshot = .empty ∧
      (mailbox.isInitialised = true →
        found.pendingAction = mailbox.pendingAction ∧
          found.takeDriveRequest.2 = mailbox.takeDriveRequest.2) ∧
      (mailbox.isInitialised = false →
        found.pendingAction = .none ∧ found.takeDriveRequest.2 = none) := by
  intro found
  have hempty : Snapshot.ofWord (Master.new timing).snapshot.toWord = .empty := by
    have hsnapshot : (Master.new timing).snapshot = .empty := rfl
    rw [hsnapshot]
    decide
  -- A mailbox that was found is kept, and any other one is emptied first.
  cases hset : mailbox.isInitialised with
  | true =>
      have hfound : found = mailbox.publish (Master.new timing).snapshot := by
        simp only [found, smallCore, start, hset, if_true]
        rfl
      rw [hfound]
      exact ⟨hset, hempty, fun _ => ⟨rfl, rfl⟩, fun hunset => absurd hunset Bool.noConfusion⟩
  | false =>
      rcases mailbox.reset_found with ⟨hset', _, haction, hrequest⟩
      have hfound : found = mailbox.reset.publish (Master.new timing).snapshot := by
        simp only [found, smallCore, start, hset, Bool.false_eq_true, if_false]
        rfl
      rw [hfound]
      exact ⟨hset', hempty, fun hunset => absurd hunset Bool.noConfusion,
        fun _ => ⟨haction, hrequest⟩⟩

/-- Whether the report of the step has been made, and nothing has been done
    since. -/
def Stage.isCurrent : Stage → Bool
  | resting | shown _ => true
  | listened _ | begun _ _ | served _ _ => false

namespace Exchange

variable {σ : Type} {exchange : Exchange σ}

/-- What the agent remembers to have written stands in the status word, and
    behind the report it is the snapshot of the master. -/
structure Shows (exchange : Exchange σ) : Prop where
  status_eq : exchange.node.mailbox.status = exchange.node.agent.published.toWord
  published_eq : exchange.stage.isCurrent = true →
    exchange.node.agent.published = exchange.node.agent.master.snapshot

theorem shows_start (timing : Timing) (policy : WakePolicy) (mailbox : Mailbox) (hardware : σ)
    (log : List Deed) :
    Shows ⟨Node.start timing policy mailbox hardware, .resting, log⟩ :=
  ⟨rfl, fun _ => rfl⟩

/-- As long as the agent only listens and sends, the word and what it remembers
    stay as they are. -/
theorem shows_of_beside {node after : Node σ} {stage stage' : Stage} {log log' : List Deed}
    (h : Shows ⟨node, stage, log⟩) (hbeside : node.Beside after)
    (hstage : stage'.isCurrent = false) : Shows ⟨after, stage', log'⟩ := by
  refine ⟨?_, fun hcurrent => absurd (hstage.symm.trans hcurrent) Bool.false_ne_true⟩
  simp only [hbeside.mailbox_eq, Node.published_of_beside hbeside]
  exact h.status_eq

/-- The word is written if it has to be. -/
theorem shows_shown {node : Node σ} {stage stage' : Stage} {log log' : List Deed}
    (h : Shows ⟨node, stage, log⟩) : Shows ⟨node.shown, stage', log'⟩ := by
  refine ⟨?_, fun _ => rfl⟩
  by_cases hsame : node.agent.master.snapshot = node.agent.published
  · simp only [Node.shown, if_pos hsame]
    rw [hsame]
    exact h.status_eq
  · simp only [Node.shown, if_neg hsame]
    rfl

/-- The word is only written where the agent takes note of what it writes.
    Listening and sending change neither. -/
theorem shows_advance (hw : Hardware σ) (h : exchange.Shows) : (exchange.advance hw).Shows := by
  rcases exchange with ⟨node, stage, log⟩
  cases stage with
  | resting => exact shows_of_beside h (node.listen_beside hw .empty) rfl
  | listened queue =>
      by_cases hdue : node.agent.master.isDue (hw.now node.hardware) = true
      · rw [advance_of_due hdue]
        exact ⟨h.status_eq, fun hcurrent => absurd hcurrent Bool.false_ne_true⟩
      · rw [advance_of_not_due hdue]
        exact ⟨h.status_eq, fun hcurrent => absurd hcurrent Bool.false_ne_true⟩
  | begun request queue => exact shows_of_beside h (node.transmit_beside hw request queue) rfl
  | served codes events =>
      cases codes with
      | cons code codes => exact ⟨h.status_eq, fun hcurrent => absurd hcurrent Bool.false_ne_true⟩
      | nil => exact shows_shown h
  -- From this access on the two views are one again.
  | shown wakes => exact ⟨h.status_eq, fun _ => h.published_eq rfl⟩

/-- Nothing that the host does touches the word. -/
theorem shows_move (hw : Hardware σ) (h : exchange.Shows) (move : Move σ) :
    (exchange.move hw move).Shows := by
  cases move with
  | post code => exact ⟨h.status_eq, h.published_eq⟩
  | cancel => exact ⟨h.status_eq, h.published_eq⟩
  | takeRequest => exact ⟨h.status_eq, h.published_eq⟩
  | drift change => exact ⟨h.status_eq, h.published_eq⟩
  | advance => exact shows_advance hw h

/-- Hence the word goes with what the agent remembers, whoever moves. -/
theorem shows_run (hw : Hardware σ) (h : exchange.Shows) (moves : List (Move σ)) :
    (exchange.run hw moves).Shows :=
  run_keeps Shows (fun _ move hbefore => shows_move hw hbefore move) h moves

/-- The two come together: the word holds what the agent remembers, and keeps
    it, since it is what a run of the master has led to. -/
theorem snapshot_of_shows {timing : Timing} (hshows : exchange.Shows)
    (htracks : exchange.Tracks timing) (hcurrent : exchange.stage.isCurrent = true) :
    exchange.node.mailbox.snapshot = exchange.node.agent.master.snapshot := by
  rcases htracks with ⟨watch, hwatched, hmaster, _⟩
  rw [Mailbox.snapshot, hshows.status_eq, hshows.published_eq hcurrent, hmaster]
  exact Watch.ofWord_toWord_of_watched hwatched

/-- Behind a step that nobody interferes with, the snapshot is that of the
    master. -/
theorem snapshot_step {timing : Timing} {node : Node σ} {log : List Deed} (hw : Hardware σ)
    (hshows : Shows ⟨node, .resting, log⟩) (htracks : Tracks timing ⟨node, .resting, log⟩) :
    (node.step hw).1.mailbox.snapshot = (node.step hw).1.agent.master.snapshot := by
  rcases run_step hw node log with ⟨count, more, hrun⟩
  have hshows' : Shows ⟨(node.step hw).1, .resting, log ++ more⟩ :=
    hrun ▸ shows_run hw hshows (List.replicate count .advance)
  have htracks' : Tracks timing ⟨(node.step hw).1, .resting, log ++ more⟩ :=
    hrun ▸ tracks_run hw htracks (List.replicate count .advance)
  exact @snapshot_of_shows _ ⟨(node.step hw).1, .resting, log ++ more⟩ _ hshows' htracks' rfl

/-- The host sees what the agent knows. An agent starts with any timing and any
    policy, and so as either of the two kinds, on any memory. Whatever agent,
    host and hardware do in turn from there on, whenever the agent is between
    two steps, or has made the report of a step, the host unpacks the very
    snapshot of the master from the status word. If it is between two steps and
    takes the next one, the host does so again behind that. -/
theorem snapshot_of_run {hw : Hardware σ} {timing : Timing} {policy : WakePolicy}
    {mailbox : Mailbox} {hardware : σ} {moves : List (Move σ)} {last : Exchange σ}
    (hrun : (⟨.start timing policy mailbox hardware, .resting, []⟩ : Exchange σ).run hw moves
      = last)
    (hcurrent : last.stage.isCurrent = true) :
    last.node.mailbox.snapshot = last.node.agent.master.snapshot ∧
      (last.stage = .resting →
        (last.node.step hw).1.mailbox.snapshot = (last.node.step hw).1.agent.master.snapshot) := by
  have hshows : last.Shows := hrun ▸ shows_run hw (shows_start timing policy mailbox hardware []) _
  have htracks : last.Tracks timing :=
    hrun ▸ tracks_run hw (tracks_start timing policy mailbox hardware []) moves
  refine ⟨snapshot_of_shows hshows htracks hcurrent, fun hresting => ?_⟩
  rcases last with ⟨node, stage, log⟩
  cases hresting
  exact snapshot_step hw hshows htracks

open Desk (exceptionAnswer)

/-- A drive that answers the first poll with an exception, before it has told
    any status, to an agent on memory that was never set up. The host sees the
    link, and a fault without a status. -/
theorem snapshot_of_run_fault :
    let first : Exchange Desk := ⟨.start (.ofMode .lowPower) .onTransition ⟨1, 2, 3, 4⟩
      { clock := 1000 }, .resting, []⟩
    let moves : List (Move Desk) := List.replicate 5 .advance ++
      [.drift fun _ => { clock := 1010, waiting := exceptionAnswer }, .advance, .post ⟨0x10⟩] ++
      List.replicate 3 .advance
    let last := first.run Desk.hardware moves
    last.stage.isCurrent = true ∧
      last.node.mailbox.snapshot = ⟨DoorStatus.unknown.withState .error, true, false⟩ := by
  intro first moves last
  have hcurrent : last.stage.isCurrent = true := by decide +kernel
  have hrun : first.run Desk.hardware moves = last := rfl
  refine ⟨hcurrent, (snapshot_of_run hrun hcurrent).1.trans ?_⟩
  decide +kernel

end Exchange

end DoorBus

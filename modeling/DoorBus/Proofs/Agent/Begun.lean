import DoorBus.Proofs.Agent.Step
import DoorBus.Proofs.Master.Notes

/-!
# What a Step Begins

A note says which request was begun, with its kind and its code. Among all
notes of a step, those of a queue that never fills, there is at most one such
note. What comes in is listened to first, and none of its notes tells of a
request. Behind the note there can only be those of a failure to send the
request.

So the requests that an agent has begun can be read off its notes, without
looking at how it decides to begin one.

## Main definitions

* `Node.asks?`: The request that a step begins.

## Theorems

* `listen_gains`: Listening begins nothing.
* `begun_work`: A step begins a request if it is time, and no more than one.
-/

namespace DoorBus

namespace Node

open Event (IsInbound)
open EventQueue (Gains gains_refl gains_trans)

/-- Notes of what came in say of no request that it was begun. -/
theorem begun_of_gains {events : List Event} {after : EventQueue}
    (h : Gains IsInbound ⟨none, events⟩ after) :
    ∃ more, after = ⟨none, events ++ more⟩ ∧ more.filterMap Event.begun? = [] := by
  rcases EventQueue.events_of_gains h with ⟨more, hafter, hmore⟩
  exact ⟨more, hafter, List.filterMap_eq_nil_iff.mpr fun event hevent =>
    (hmore event hevent).begun_eq⟩

variable {σ : Type}

/-- Each chunk adds notes of its own kind, by induction on the reads that are
    left. -/
theorem read_gains (hw : Hardware σ) (reads : Nat) (node : Node σ) (queue : EventQueue) :
    Gains IsInbound queue (node.read hw reads queue).2 := by
  induction reads generalizing node queue with
  | zero => exact gains_refl queue
  | succ reads ih =>
      rw [read]
      rcases hw.receive Agent.chunkSize node.hardware with ⟨hardware, error | bytes⟩
      · exact gains_refl queue
      · simp only []
        by_cases hempty : bytes.isEmpty = true
        · rw [if_pos hempty]
          exact gains_refl queue
        rw [if_neg hempty]
        have hheard := Master.hear_gains node.agent.master (hw.now hardware) bytes queue
        -- A chunk that is not full is the last one of the step.
        by_cases hpart : bytes.length < Agent.chunkSize
        · rw [if_pos hpart]
          exact hheard
        · rw [if_neg hpart]
          exact gains_trans hheard (ih _ _)

/-- Listening begins nothing. -/
theorem listen_gains (hw : Hardware σ) (node : Node σ) (queue : EventQueue) :
    Gains IsInbound queue (node.listen hw queue).2 :=
  gains_trans (read_gains hw Agent.readsPerStep node queue) (Master.checkTimeouts_gains _ _ _)

/-- A request that is sent leaves no note, and one that could not be sent only
    those of a failure. -/
theorem transmit_gains (hw : Hardware σ) (node : Node σ) (request : List UInt8)
    (queue : EventQueue) : Gains IsInbound queue (node.transmit hw request queue).2 := by
  unfold transmit
  rcases hw.transmit request node.hardware with ⟨hardware, error | done⟩
  · exact Master.resolveFailure_gains _ queue
  · exact gains_refl queue

/-- A step is a poll by what it has listened to. -/
theorem work_eq_poll {node : Node σ} (h : node.AtRest) (hw : Hardware σ) (queue : EventQueue) :
    node.work hw queue = (node.listened hw).poll hw (node.listen hw queue).2 := by
  rw [work, ← listen_eq_listened h hw queue]

/-- The request that a step begins. It is decided once the node has
    listened. -/
def asks? (hw : Hardware σ) (node : Node σ) : Option Request :=
  if (node.listened hw).agent.master.isDue (hw.now (node.listened hw).hardware) then
    some ⟨(node.listened hw).agent.master.nextKind, node.mailbox.pendingAction⟩
  else
    none

/-- The request of a step has the action that waited in the mailbox before it,
    since listening leaves the slot alone. -/
theorem eq_of_asks {hw : Hardware σ} {node : Node σ} {request : Request}
    (h : node.asks? hw = some request) :
    (node.listened hw).agent.master.isDue (hw.now (node.listened hw).hardware) = true ∧
      request = ⟨(node.listened hw).agent.master.nextKind, node.mailbox.pendingAction⟩ := by
  rw [asks?] at h
  by_cases hdue : (node.listened hw).agent.master.isDue (hw.now (node.listened hw).hardware) = true
  · rw [if_pos hdue] at h
    exact ⟨hdue, (Option.some.inj h).symm⟩
  · rw [if_neg hdue] at h
    exact absurd h.symm (Option.some_ne_none request)

/-- A step begins a request if it is time once it has listened, and no more
    than that. -/
theorem begun_work {node : Node σ} (h : node.AtRest) (hw : Hardware σ) :
    (node.work hw .unbounded).2.events.filterMap Event.begun? = (node.asks? hw).toList := by
  rcases begun_of_gains (listen_gains hw node .unbounded) with ⟨heard, hqueue, hheard⟩
  rw [List.nil_append] at hqueue
  rw [work_eq_poll h hw, hqueue, poll, asks?]
  by_cases hdue : (node.listened hw).agent.master.isDue (hw.now (node.listened hw).hardware) = true
  · rw [if_pos hdue, Master.beginIfDue_of_due hdue]
    -- The note of the request is followed by those of a failure to send it, if any.
    rcases begun_of_gains (transmit_gains hw ((node.listened hw).begun hw) _
      ⟨none, heard ++ [.sent (node.listened hw).agent.master.nextKind
        (node.listened hw).mailbox.takeAction.2]⟩) with ⟨more, hsent, hmore⟩
    have hevents := congrArg (fun queue => queue.events.filterMap Event.begun?) hsent
    simp only [List.filterMap_append, hheard, hmore, List.append_nil, List.nil_append] at hevents
    exact hevents
  · rw [if_neg hdue, Master.beginIfDue_of_not_due hdue]
    exact hheard

end Node

end DoorBus

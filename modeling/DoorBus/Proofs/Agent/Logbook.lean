import DoorBus.Proofs.Agent.Exchange

/-!
# A Log of What an Agent Does

An agent acts on its surroundings in two ways that matter to others: it sends
requests to the line, and it wakes the host. Neither leaves a trace in the
agent itself, so a claim about how often or when it acts needs somewhere to
read that off.

The hardware can keep it. `Hardware.logged` is the same hardware with a log
beside its state, in which every call to send and every call to wake is
entered as it is made. The agent never looks into the state of its hardware,
so it cannot tell the difference: `step_within` says that a step on logged
hardware is the step on the hardware itself, and which entries it adds.

`Leads` collects what can become of a node from some beginning on while the
log is kept. Between two steps the hardware may change in any way, and the
mailbox as far as somebody beside the agent may write to it. The log itself is
out of reach.

An exchange takes the steps apart, and keeps the log in the same way. There
`run_within` says that no move notices it, and `sent_advance` that an agent
that goes on sends the request that it has begun, once, and nothing else.

## Main definitions

* `Sending`, `Log`: Entries, and the log.
* `Hardware.logged`: Hardware that keeps the log.
* `Node.within`, `Node.bare`: A node with a log, and without.
* `Node.log`: What is in the log.
* `Node.stepTime`: The time of a step.
* `Node.sending?`, `Node.stepWakes`: What a step adds to the log.
* `Node.Leads`: What can become of a node while the log is kept.
* `Move.logged`: A move that leaves the log alone.
* `Exchange.within`, `Exchange.bare`: An exchange with a log, and without.

## Theorems

* `listen_within`, `poll_within`, `report_within`: The parts of a step.
* `step_within`, `step_logged`: A step does not notice the log, and adds to it.
* `reachable_of_leads`: Without the log, a node is like any other.
* `advance_within`, `move_within`, `run_within`: Nor does an exchange notice it.
* `sent_advance`: What an agent that goes on adds to the requests in it.
-/

namespace DoorBus

/-- A request that was sent, whether that worked or not. -/
structure Sending where
  /-- What the clock said then. -/
  time : Millis
  /-- The request. -/
  request : List UInt8
  deriving DecidableEq

/-- What an agent did to its surroundings, first entries first. -/
structure Log where
  /-- The requests that it sent. -/
  sent : List Sending := []
  /-- The mailbox as it was each time that it woke the host. -/
  wakes : List Mailbox := []
  deriving DecidableEq

variable {σ : Type}

/-- The same hardware, with a log of the calls that act on the surroundings. -/
def Hardware.logged (hw : Hardware σ) : Hardware (σ × Log) where
  transmit request state :=
    (((hw.transmit request state.1).1,
      { state.2 with sent := state.2.sent ++ [⟨hw.now state.1, request⟩] }),
      (hw.transmit request state.1).2)
  receive count state :=
    (((hw.receive count state.1).1, state.2), (hw.receive count state.1).2)
  now state := hw.now state.1
  tick state := (hw.tick state.1, state.2)
  pause span state := (hw.pause span state.1, state.2)
  wakeHost mailbox state :=
    (hw.wakeHost mailbox state.1, { state.2 with wakes := state.2.wakes ++ [mailbox] })

namespace Node

/-- A node whose hardware keeps a log. -/
def within (node : Node σ) (log : Log) : Node (σ × Log) where
  agent := node.agent
  mailbox := node.mailbox
  hardware := (node.hardware, log)

/-- A node without its log. -/
def bare (node : Node (σ × Log)) : Node σ where
  agent := node.agent
  mailbox := node.mailbox
  hardware := node.hardware.1

/-- What is in the log. -/
def log (node : Node (σ × Log)) : Log :=
  node.hardware.2

/-- What the clock says in a step, once the node has listened. -/
def stepTime (hw : Hardware σ) (node : Node σ) : Millis :=
  hw.now (node.listen hw .empty).1.hardware

/-- The request that a step sends. It is decided once the node has listened. -/
def sending? (hw : Hardware σ) (node : Node σ) : Option Sending :=
  let listened := (node.listen hw .empty).1
  if listened.agent.master.isDue (node.stepTime hw) then
    some ⟨node.stepTime hw,
      (Request.mk listened.agent.master.nextKind listened.mailbox.pendingAction).bytes⟩
  else
    none

/-! ## Parts of a step -/

/-- Reading adds nothing to the log, however many reads are left. -/
theorem read_within (hw : Hardware σ) (reads : Nat) (node : Node σ) (queue : EventQueue)
    (log : Log) :
    (node.within log).read hw.logged reads queue
      = ((node.read hw reads queue).1.within log, (node.read hw reads queue).2) := by
  induction reads generalizing node queue with
  | zero => rfl
  | succ reads ih =>
      rw [read, read]
      have hreceive : hw.logged.receive Agent.chunkSize (node.within log).hardware
          = (((hw.receive Agent.chunkSize node.hardware).1, log),
            (hw.receive Agent.chunkSize node.hardware).2) := rfl
      rw [hreceive]
      rcases hw.receive Agent.chunkSize node.hardware with ⟨hardware, error | bytes⟩
      · rfl
      · simp only []
        by_cases hempty : bytes.isEmpty = true
        · rw [if_pos hempty, if_pos hempty]
          rfl
        · rw [if_neg hempty, if_neg hempty]
          by_cases hpart : bytes.length < Agent.chunkSize
          · simp only [if_pos hpart]
            rfl
          · -- A full chunk is followed by another read.
            simp only [if_neg hpart]
            exact ih (({ node with hardware }).withMaster
              (node.agent.master.hear (hw.now hardware) bytes queue).1)
              (node.agent.master.hear (hw.now hardware) bytes queue).2

/-- Listening leaves the log alone, with the look at the clock at its end. -/
theorem listen_within (hw : Hardware σ) (node : Node σ) (queue : EventQueue) (log : Log) :
    (node.within log).listen hw.logged queue
      = ((node.listen hw queue).1.within log, (node.listen hw queue).2) := by
  rw [listen, listen, read_within]
  rfl

/-- Sending adds its request to the log, with the time before it and whether or
    not it worked. -/
theorem transmit_within (hw : Hardware σ) (node : Node σ) (request : List UInt8)
    (queue : EventQueue) (log : Log) :
    (node.within log).transmit hw.logged request queue
      = ((node.transmit hw request queue).1.within
          { log with sent := log.sent ++ [⟨hw.now node.hardware, request⟩] },
        (node.transmit hw request queue).2) := by
  rw [transmit, transmit]
  have htransmit : hw.logged.transmit request (node.within log).hardware
      = (((hw.transmit request node.hardware).1,
          { log with sent := log.sent ++ [⟨hw.now node.hardware, request⟩] }),
        (hw.transmit request node.hardware).2) := rfl
  rw [htransmit]
  rcases hw.transmit request node.hardware with ⟨hardware, error | done⟩
  · rfl
  · rfl

/-- Polling adds the request to the log if there is one. -/
theorem poll_within (hw : Hardware σ) (node : Node σ) (queue : EventQueue) (log : Log) :
    (node.within log).poll hw.logged queue
      = ((node.poll hw queue).1.within
          { log with
            sent := log.sent ++
              if node.agent.master.isDue (hw.now node.hardware) then
                [⟨hw.now node.hardware,
                  (Request.mk node.agent.master.nextKind node.mailbox.pendingAction).bytes⟩]
              else [] },
        (node.poll hw queue).2) := by
  have hnow : hw.logged.now (node.within log).hardware = hw.now node.hardware := rfl
  have hmaster : (node.within log).agent.master = node.agent.master := rfl
  have hmailbox : (node.within log).mailbox = node.mailbox := rfl
  rw [poll, poll, hnow, hmaster, hmailbox]
  -- Nothing but a poll that is due gets as far as the write.
  by_cases hdue : node.agent.master.isDue (hw.now node.hardware) = true
  · rw [if_pos hdue, Master.beginIfDue_of_due hdue]
    exact transmit_within hw (({ node with mailbox := node.mailbox.takeAction.1 }).withMaster
      (node.agent.master.begun (hw.now node.hardware))) _ _ log
  · rw [if_neg hdue, Master.beginIfDue_of_not_due hdue, List.append_nil]
    rfl

/-- Reporting adds the mailbox to the log if the host is woken, just as the
    step leaves it. -/
theorem report_within (hw : Hardware σ) (node : Node σ) (events : List Event) (log : Log) :
    (node.within log).report hw.logged events
      = (node.report hw events).within
          { log with
            wakes := log.wakes ++
              if node.wakes events then [(node.report hw events).mailbox] else [] } := by
  by_cases hwakes : node.wakes events = true
  · have hshould : node.agent.policy.shouldWake node.agent.published node.agent.master.snapshot
        events = true := hwakes
    rw [if_pos hwakes, report, report]
    simp only [within, hshould, if_true]
    rfl
  · have hshould : ¬node.agent.policy.shouldWake node.agent.published node.agent.master.snapshot
        events = true := hwakes
    rw [if_neg hwakes, List.append_nil, report, report]
    simp only [within, hshould]
    rfl

/-! ## Steps -/

/-- Whether a step wakes the host. -/
def stepWakes (hw : Hardware σ) (node : Node σ) : Bool :=
  (node.work hw .empty).1.wakes (node.step hw).2

/-- A step does not notice the log. It adds the request that it sends, if any,
    and the mailbox that it wakes the host with, if it does. -/
theorem step_within (hw : Hardware σ) (node : Node σ) (log : Log) :
    (node.within log).step hw.logged
      = ((node.step hw).1.within
          { sent := log.sent ++ (node.sending? hw).toList
            wakes := log.wakes ++ if node.stepWakes hw then [(node.step hw).1.mailbox] else [] },
        (node.step hw).2) := by
  -- The request is what polling would send, once the node has listened.
  have hsent : (node.sending? hw).toList
      = if (node.listen hw .empty).1.agent.master.isDue (node.stepTime hw) then
          [⟨node.stepTime hw, (Request.mk (node.listen hw .empty).1.agent.master.nextKind
            (node.listen hw .empty).1.mailbox.pendingAction).bytes⟩] else [] := by
    unfold sending?
    by_cases hdue : (node.listen hw .empty).1.agent.master.isDue (node.stepTime hw) = true
    · rw [if_pos hdue, if_pos hdue]
      rfl
    · rw [if_neg hdue, if_neg hdue]
      rfl
  have hwork : (node.within log).work hw.logged .empty
      = ((node.work hw .empty).1.within
          { log with sent := log.sent ++ (node.sending? hw).toList },
        (node.work hw .empty).2) := by
    rw [work, work, listen_within, hsent]
    exact poll_within hw _ _ log
  -- Only the report to the host is left, and it is made with the mailbox that the step leaves.
  rw [step_eq, hwork, step_eq hw node]
  exact Prod.ext (report_within hw _ _ _) rfl

/-- With a log, in terms of what the node is without it. -/
theorem step_logged (hw : Hardware σ) (node : Node (σ × Log)) :
    node.step hw.logged
      = ((node.bare.step hw).1.within
          { sent := node.log.sent ++ (node.bare.sending? hw).toList
            wakes := node.log.wakes ++
              if node.bare.stepWakes hw then [(node.bare.step hw).1.mailbox] else [] },
        (node.bare.step hw).2) :=
  step_within hw node.bare node.log

/-! ## Runs -/

/-- What can become of a node while the log is kept. Between two steps the
    hardware may change in any way, and the mailbox in a given one. -/
inductive Leads (hw : Hardware σ) (may : Mailbox → Mailbox → Prop) (first : Node (σ × Log)) :
    Node (σ × Log) → Prop
  /-- Nothing has happened yet. -/
  | start : Leads hw may first first
  /-- The agent takes a step. -/
  | step {node : Node (σ × Log)} :
    Leads hw may first node → Leads hw may first (node.step hw.logged).1
  /-- Anything else happens. -/
  | other {node : Node (σ × Log)} (mailbox : Mailbox) (hardware : σ) :
    Leads hw may first node → may node.mailbox mailbox →
      Leads hw may first { node with mailbox, hardware := (hardware, node.log) }

/-- Without the log, a node is one that agents, hosts and hardware lead to. -/
theorem reachable_of_leads {hw : Hardware σ} {may : Mailbox → Mailbox → Prop} {timing : Timing}
    {policy : WakePolicy} {mailbox : Mailbox} {hardware : σ} {node : Node (σ × Log)}
    (h : Leads hw may ((start timing policy mailbox hardware).within {}) node) :
    Reachable hw timing policy node.bare := by
  induction h with
  | start => exact .start mailbox hardware
  | step _ ih =>
      rw [step_logged]
      exact .step ih
  | other mailbox hardware _ _ ih => exact .other mailbox hardware ih

end Node

/-! ## Exchanges -/

/-- The same move where the hardware keeps a log, which is out of reach of what
    happens to the hardware. -/
def Move.logged : Move σ → Move (σ × Log)
  | post code => .post code
  | cancel => .cancel
  | takeRequest => .takeRequest
  | drift change => .drift fun state => (change state.1, state.2)
  | advance => .advance

namespace Exchange

/-- An exchange whose hardware keeps a log. -/
def within (exchange : Exchange σ) (log : Log) : Exchange (σ × Log) where
  node := exchange.node.within log
  stage := exchange.stage
  log := exchange.log

/-- An exchange without the log of its hardware. -/
def bare (exchange : Exchange (σ × Log)) : Exchange σ where
  node := exchange.node.bare
  stage := exchange.stage
  log := exchange.log

/-- An agent that goes on does not notice the log. It adds the request that it
    has yet to write. -/
theorem advance_within (hw : Hardware σ) (exchange : Exchange σ) (log : Log) :
    ∃ wakes, (exchange.within log).advance hw.logged
      = (exchange.advance hw).within
          { sent := log.sent ++ (exchange.stage.unwritten?.map fun request =>
              ⟨hw.now exchange.node.hardware, request⟩).toList
            wakes } := by
  rcases exchange with ⟨node, stage, deeds⟩
  -- The line is only used where a request has been begun, and that is the one added.
  cases stage with
  | resting =>
      refine ⟨log.wakes, ?_⟩
      simp only [within, advance, Node.listen_within, Stage.unwritten?, Option.map_none,
        Option.toList_none, List.append_nil]
  | listened queue =>
      refine ⟨log.wakes, ?_⟩
      simp only [Stage.unwritten?, Option.map_none, Option.toList_none, List.append_nil]
      by_cases hdue : node.agent.master.isDue (hw.now node.hardware) = true
      · have hdue' : (node.within log).agent.master.isDue
            (hw.logged.now (node.within log).hardware) = true := hdue
        simp only [within, advance_of_due hdue, advance_of_due hdue']
        rfl
      · have hdue' : ¬(node.within log).agent.master.isDue
            (hw.logged.now (node.within log).hardware) = true := hdue
        simp only [within, advance_of_not_due hdue, advance_of_not_due hdue']
  | begun request queue =>
      refine ⟨log.wakes, ?_⟩
      simp only [within, advance, Node.transmit_within]
      rfl
  | served codes events =>
      refine ⟨log.wakes, ?_⟩
      simp only [Stage.unwritten?, Option.map_none, Option.toList_none, List.append_nil]
      cases codes <;> rfl
  | shown wakes =>
      simp only [Stage.unwritten?, Option.map_none, Option.toList_none, List.append_nil]
      cases wakes with
      | false => exact ⟨log.wakes, rfl⟩
      | true => exact ⟨log.wakes ++ [node.mailbox], rfl⟩

/-- A move of anybody is the same with a log beside the state, and adds nothing
    to it but what the agent writes. -/
theorem move_within (hw : Hardware σ) (exchange : Exchange σ) (log : Log) (move : Move σ) :
    ∃ log', (exchange.within log).move hw.logged move.logged
      = (exchange.move hw move).within log' := by
  cases move with
  | post code => exact ⟨log, rfl⟩
  | cancel => exact ⟨log, rfl⟩
  | takeRequest => exact ⟨log, rfl⟩
  | drift change => exact ⟨log, rfl⟩
  | advance =>
      rcases advance_within hw exchange log with ⟨wakes, hadvance⟩
      exact ⟨_, hadvance⟩

/-- Hence moves lead to the same exchange with a log as without. -/
theorem run_within (hw : Hardware σ) (exchange : Exchange σ) (log : Log) (moves : List (Move σ)) :
    ∃ log', (exchange.within log).run hw.logged (moves.map Move.logged)
      = (exchange.run hw moves).within log' := by
  induction moves generalizing exchange log with
  | nil => exact ⟨log, rfl⟩
  | cons move moves ih =>
      rcases move_within hw exchange log move with ⟨log', hmove⟩
      rcases ih (exchange.move hw move) log' with ⟨last, hrun⟩
      refine ⟨last, ?_⟩
      rw [List.map_cons, run, List.foldl_cons, hmove]
      exact hrun

/-- An agent that goes on sends the request that it has yet to write, once, and
    sends nothing else. -/
theorem sent_advance (hw : Hardware σ) (exchange : Exchange (σ × Log)) :
    (exchange.advance hw.logged).node.log.sent.map Sending.request
      = exchange.node.log.sent.map Sending.request ++ exchange.stage.unwritten?.toList := by
  rcases advance_within hw exchange.bare exchange.node.log with ⟨wakes, hadvance⟩
  have hsent := congrArg (fun exchange => exchange.node.log.sent.map Sending.request) hadvance
  refine hsent.trans ?_
  have hbare : exchange.bare.stage = exchange.stage := rfl
  simp only [within, Node.within, Node.log, List.map_append, hbare]
  cases exchange.stage.unwritten? <;> rfl

end Exchange

end DoorBus

import DoorBus.Proofs.Agent.Step

/-!
# An Agent and a Host at One Mailbox

The host does not wait for the agent to finish a step before it uses the
mailbox. So a step has to be taken apart, as far as the mailbox can tell: the
agent listens, it takes the action and begins a poll, it sends the request, it
hands on the drive requests one by one, it brings the status word up to date,
and it wakes the host. Each of these makes one access to the mailbox at most,
and the host may do anything in between.

An `Exchange` is an agent somewhere within a step, with a log of what was done
about actions. It moves when the agent goes on, when the host uses the
mailbox, and when anything happens to the hardware. What only reads the mailbox
is no move, since it leaves everything as it is. A step that nobody interferes
with is the step of a node.

## Main definitions

* `Stage`: Where an agent stands within a step.
* `Deed`: Something that was done about actions.
* `Exchange`: An agent and a host at one mailbox.
* `Exchange.move`, `Exchange.run`: What happens there.
* `Node.Beside`: Two nodes that differ in the master and the hardware at most.
* `Exchange.Tracks`: The master is a watched one.

## Theorems

* `run_keeps`: What every move keeps up holds throughout.
* `run_step`: A step that nobody interferes with is the step of a node.
* `listen_beside`, `transmit_beside`: The line is no matter of the mailbox.
* `tracks_move`, `tracks_run`: The master stays a watched one.
-/

namespace DoorBus

/-- Where an agent stands within a step. -/
inductive Stage
  /-- Between two steps. -/
  | resting
  /-- It has listened. -/
  | listened (queue : EventQueue)
  /-- It has begun a poll, and has yet to send the request. -/
  | begun (request : List UInt8) (queue : EventQueue)
  /-- It is done with the bus, and has yet to hand on some drive requests. -/
  | served (codes : List UInt16) (events : List Event)
  /-- It has brought the mailbox up to date, and may have yet to wake the
      host. -/
  | shown (wakes : Bool)

/-- Something that was done about actions. -/
inductive Deed
  /-- The host filled the action slot, and got the code that was replaced. -/
  | posted (code replaced : ActionCode)
  /-- The host emptied the slot, and got the code that was in it, if any. -/
  | cancelled (answer : Option ActionCode)
  /-- The agent built a request. -/
  | built (request : List UInt8)

/-- An agent and a host at one mailbox. -/
structure Exchange (σ : Type) where
  /-- The agent, with the mailbox and the hardware. -/
  node : Node σ
  /-- Where the agent stands within a step. -/
  stage : Stage := .resting
  /-- What was done about actions. -/
  log : List Deed := []

/-- Something that happens at the mailbox. -/
inductive Move (σ : Type)
  /-- The host fills the action slot. -/
  | post (code : ActionCode)
  /-- The host empties the action slot. -/
  | cancel
  /-- The host empties the drive request. -/
  | takeRequest
  /-- Anything happens to the hardware. -/
  | drift (change : σ → σ)
  /-- The agent goes on. -/
  | advance

variable {σ : Type}

namespace Node

/-- A node that has brought the status word up to date. -/
def shown (node : Node σ) : Node σ where
  agent := { node.agent with published := node.agent.master.snapshot }
  mailbox := if node.agent.master.snapshot = node.agent.published then node.mailbox else
    node.mailbox.publish node.agent.master.snapshot
  hardware := node.hardware

theorem action_shown (node : Node σ) : node.shown.mailbox.action = node.mailbox.action := by
  rw [shown]
  split <;> rfl

/-- Whether there is something to wake the host for. -/
def wakes (node : Node σ) (events : List Event) : Bool :=
  node.agent.policy.shouldWake node.agent.published node.agent.master.snapshot events

/-- A node that has woken the host, if it was to be. -/
def woken (hw : Hardware σ) (node : Node σ) (wakes : Bool) : Node σ :=
  { node with hardware := if wakes then hw.wakeHost node.mailbox node.hardware else node.hardware }

end Node

/-- The agent is done with the bus. -/
def Stage.afterBus (queue : EventQueue) : Stage :=
  .served (queue.events.filterMap Event.driveRequest?) queue.events

/-- The request that the agent has yet to write. -/
def Stage.unwritten? : Stage → Option (List UInt8)
  | begun request _ => some request
  | resting | listened _ | served _ _ | shown _ => none

namespace Exchange

/-- The agent goes on. -/
def advance (hw : Hardware σ) (exchange : Exchange σ) : Exchange σ :=
  let node := exchange.node
  match exchange.stage with
  | .resting =>
    { exchange with
      node := (node.listen hw .empty).1
      stage := .listened (node.listen hw .empty).2 }
  | .listened queue =>
    let begun := node.agent.master.beginIfDue (hw.now node.hardware) Mailbox.takeAction
      node.mailbox queue
    let node := { node with mailbox := begun.source }.withMaster begun.master
    match begun.request with
    | .ok (some request) =>
      { node, stage := .begun request begun.queue, log := exchange.log ++ [.built request] }
    | .ok none | .error _ => { exchange with node, stage := .afterBus begun.queue }
  | .begun request queue =>
    { exchange with
      node := (node.transmit hw request queue).1
      stage := .afterBus (node.transmit hw request queue).2 }
  | .served (code :: codes) events =>
    { exchange with
      node := { node with mailbox := node.mailbox.publishDriveRequest code }
      stage := .served codes events }
  | .served [] events => { exchange with node := node.shown, stage := .shown (node.wakes events) }
  | .shown wakes => { exchange with node := node.woken hw wakes, stage := .resting }

/-- The action leaves the slot at the very move that builds it into a request. -/
theorem advance_of_due {hw : Hardware σ} {node : Node σ}
    (h : node.agent.master.isDue (hw.now node.hardware) = true) (queue : EventQueue)
    (log : List Deed) :
    let request := Request.mk node.agent.master.nextKind node.mailbox.pendingAction
    (⟨node, .listened queue, log⟩ : Exchange σ).advance hw
      = ⟨node.begun hw, .begun request.bytes (queue.push (.sent request.kind request.action)),
        log ++ [.built request.bytes]⟩ := by
  intro request
  rw [advance]
  simp only [Master.beginIfDue_of_due h]
  rfl

/-- An agent that is not due passes the action slot by. -/
theorem advance_of_not_due {hw : Hardware σ} {node : Node σ}
    (h : ¬node.agent.master.isDue (hw.now node.hardware) = true) (queue : EventQueue)
    (log : List Deed) :
    (⟨node, .listened queue, log⟩ : Exchange σ).advance hw = ⟨node, .afterBus queue, log⟩ := by
  rw [advance]
  simp only [Master.beginIfDue_of_not_due h]
  rfl

/-- The exchange after a move. -/
def move (hw : Hardware σ) (exchange : Exchange σ) : Move σ → Exchange σ
  | .post code =>
    { exchange with
      node := { exchange.node with mailbox := (exchange.node.mailbox.post code).1 }
      log := exchange.log ++ [.posted code (exchange.node.mailbox.post code).2] }
  | .cancel =>
    { exchange with
      node := { exchange.node with mailbox := exchange.node.mailbox.cancel.1 }
      log := exchange.log ++ [.cancelled exchange.node.mailbox.cancel.2] }
  | .takeRequest =>
    { exchange with
      node := { exchange.node with mailbox := exchange.node.mailbox.takeDriveRequest.1 } }
  | .drift change =>
    { exchange with node := { exchange.node with hardware := change exchange.node.hardware } }
  | .advance => exchange.advance hw

/-- The exchange after some moves. -/
def run (hw : Hardware σ) (exchange : Exchange σ) (moves : List (Move σ)) : Exchange σ :=
  moves.foldl (move hw) exchange

/-- What every move keeps up holds after any moves. -/
theorem run_keeps (holds : Exchange σ → Prop) {hw : Hardware σ}
    (hmove : ∀ exchange move, holds exchange → holds (exchange.move hw move))
    {exchange : Exchange σ} (h : holds exchange) (moves : List (Move σ)) :
    holds (exchange.run hw moves) := by
  induction moves generalizing exchange with
  | nil => exact h
  | cons move moves ih => exact ih (hmove exchange move h)

/-! ## Steps without interference -/

/-- The agent reports. The induction is on the drive requests that are still to
    be handed on. -/
theorem run_served (hw : Hardware σ) (node : Node σ) (codes : List UInt16) (events : List Event)
    (log : List Deed) :
    (⟨node, .served codes events, log⟩ : Exchange σ).run hw
        (List.replicate (codes.length + 2) .advance)
      = ⟨({ node with mailbox := codes.foldl Mailbox.publishDriveRequest node.mailbox }.shown).woken
          hw (node.wakes events), .resting, log⟩ := by
  induction codes generalizing node with
  | nil => rfl
  | cons code codes ih => exact ih { node with mailbox := node.mailbox.publishDriveRequest code }

/-- Behind the bus only the report is left, which takes a move for each drive
    request and two more. -/
theorem run_afterBus (hw : Hardware σ) (node : Node σ) (queue : EventQueue) (log : List Deed) :
    ∃ count, (⟨node, .afterBus queue, log⟩ : Exchange σ).run hw (List.replicate count .advance)
      = ⟨node.report hw queue.events, .resting, log⟩ :=
  ⟨_, run_served hw node _ _ log⟩

theorem run_listened (hw : Hardware σ) (node : Node σ) (queue : EventQueue) (log : List Deed) :
    ∃ count more, (⟨node, .listened queue, log⟩ : Exchange σ).run hw
        (List.replicate count .advance)
      = ⟨(node.poll hw queue).1.report hw (node.poll hw queue).2.events, .resting,
        log ++ more⟩ := by
  have hfirst : ∀ count, (⟨node, .listened queue, log⟩ : Exchange σ).run hw
      (List.replicate (count + 1) .advance)
      = ((⟨node, .listened queue, log⟩ : Exchange σ).advance hw).run hw
        (List.replicate count .advance) := fun _ => rfl
  rw [Node.poll]
  by_cases hdue : node.agent.master.isDue (hw.now node.hardware) = true
  · simp only [advance_of_due hdue] at hfirst
    simp only [Master.beginIfDue_of_due hdue]
    let request := (Request.mk node.agent.master.nextKind node.mailbox.pendingAction).bytes
    rcases run_afterBus hw _ _ (log ++ [.built request]) with ⟨count, hrun⟩
    -- Sending the request is one more move.
    refine ⟨count + 1 + 1, [.built request], ?_⟩
    rw [hfirst]
    exact hrun
  · simp only [advance_of_not_due hdue] at hfirst
    simp only [Master.beginIfDue_of_not_due hdue]
    rcases run_afterBus hw node queue log with ⟨count, hrun⟩
    refine ⟨count + 1, [], ?_⟩
    rw [hfirst, hrun, List.append_nil]
    rfl

/-- A step that nobody interferes with is the step of a node. -/
theorem run_step (hw : Hardware σ) (node : Node σ) (log : List Deed) :
    ∃ count more, (⟨node, .resting, log⟩ : Exchange σ).run hw (List.replicate count .advance)
      = ⟨(node.step hw).1, .resting, log ++ more⟩ := by
  rcases run_listened hw (node.listen hw .empty).1 (node.listen hw .empty).2 log with
    ⟨count, more, hrun⟩
  exact ⟨count + 1, more, hrun⟩

end Exchange

/-! ## The line and the mailbox -/

namespace Node

/-- Two nodes that differ in the master and the hardware at most. -/
structure Beside (before after : Node σ) : Prop where
  agent_eq : after.agent = { before.agent with master := after.agent.master }
  mailbox_eq : after.mailbox = before.mailbox

/-- What the agent remembers to have published is no part of the master. -/
theorem published_of_beside {before after : Node σ} (h : before.Beside after) :
    after.agent.published = before.agent.published := by
  rw [h.agent_eq]

/-- However many reads there are, they bring bytes to the master and nothing to
    anybody else. -/
theorem read_beside (hw : Hardware σ) (reads : Nat) (node : Node σ) (queue : EventQueue) :
    node.Beside (node.read hw reads queue).1 := by
  induction reads generalizing node queue with
  | zero => exact ⟨rfl, rfl⟩
  | succ reads ih =>
      rw [read]
      cases hw.receive Agent.chunkSize node.hardware with
      | mk hardware result =>
          cases result with
          | error error => exact ⟨rfl, rfl⟩
          | ok bytes =>
              simp only []
              by_cases hempty : bytes.isEmpty = true
              · rw [if_pos hempty]
                exact ⟨rfl, rfl⟩
              rw [if_neg hempty]
              by_cases hpart : bytes.length < Agent.chunkSize
              · rw [if_pos hpart]
                exact ⟨rfl, rfl⟩
              · rw [if_neg hpart]
                have hrest := ih (({ node with hardware }).withMaster
                  (node.agent.master.hear (hw.now hardware) bytes queue).1)
                  (node.agent.master.hear (hw.now hardware) bytes queue).2
                exact ⟨hrest.agent_eq, hrest.mailbox_eq⟩

/-- Listening is no matter of the mailbox. -/
theorem listen_beside (hw : Hardware σ) (node : Node σ) (queue : EventQueue) :
    node.Beside (node.listen hw queue).1 := by
  have hread := read_beside hw Agent.readsPerStep node queue
  have hagent : (node.listen hw queue).1.agent
      = { (node.read hw Agent.readsPerStep queue).1.agent with
          master := (node.listen hw queue).1.agent.master } := rfl
  refine ⟨?_, hread.mailbox_eq⟩
  rw [hagent, hread.agent_eq]

/-- Sending a request touches only the master and the hardware. -/
theorem transmit_beside (hw : Hardware σ) (node : Node σ) (request : List UInt8)
    (queue : EventQueue) : node.Beside (node.transmit hw request queue).1 := by
  rw [transmit]
  cases hw.transmit request node.hardware with
  | mk hardware result => cases result <;> exact ⟨rfl, rfl⟩

end Node

/-! ## The master inside -/

/-- Whether the agent has to tell the master how sending a request went. -/
def Stage.owes : Stage → Bool
  | begun _ _ => true
  | resting | listened _ | served _ _ | shown _ => false

namespace Exchange

variable {timing : Timing} {exchange : Exchange σ}

/-- The master is a watched one, and the agent owes a report on a request just
    while it has one to send. -/
def Tracks (timing : Timing) (exchange : Exchange σ) : Prop :=
  ∃ watch, Watch.Watched timing watch ∧ exchange.node.agent.master = watch.master ∧
    watch.owes = exchange.stage.owes

/-- A new master has not been called yet. -/
theorem tracks_start (timing : Timing) (policy : WakePolicy) (mailbox : Mailbox) (hardware : σ)
    (log : List Deed) :
    Tracks timing ⟨Node.start timing policy mailbox hardware, .resting, log⟩ :=
  ⟨.on (.new timing), .start, rfl, rfl⟩

/-- To the master, listening is a run of calls that it may always be given. -/
theorem tracks_listen {node : Node σ} {log : List Deed} (hw : Hardware σ)
    (h : Tracks timing ⟨node, .resting, log⟩) (queue : EventQueue) :
    Tracks timing ⟨(node.listen hw queue).1, .listened (node.listen hw queue).2, log⟩ := by
  rcases h with ⟨watch, hwatched, hmaster, howes⟩
  simp only at hmaster
  have hsettled := (Watch.inStep_of_watched hwatched).course.settled
  rw [← hmaster] at hsettled
  have hinbound := Node.isInbound_listenCalls hw node
  -- What listening does is what the calls do that it makes.
  have hlisten : (node.listen hw queue).1 = node.listened hw := by
    have hworks := Node.listen_works hw (Watch.inStep_on hsettled) node rfl
    exact congrArg Prod.fst (hworks.does queue)
  refine ⟨watch.callAll (node.listenCalls hw),
    Watch.watched_callAll hwatched (Node.permitsAll_of_isInbound hinbound), ?_, ?_⟩
  · rw [hlisten, Watch.master_callAll, ← hmaster]
    rfl
  · rw [Node.owes_callAll_of_isInbound hinbound, howes]
    rfl

/-- A poll that is begun leaves the agent owing a report, and it stands at the
    stage that says so. -/
theorem tracks_begin {node : Node σ} {queue : EventQueue} {log : List Deed} (hw : Hardware σ)
    (h : Tracks timing ⟨node, .listened queue, log⟩) :
    Tracks timing ((⟨node, .listened queue, log⟩ : Exchange σ).advance hw) := by
  rcases h with ⟨watch, hwatched, hmaster, howes⟩
  simp only at hmaster
  by_cases hdue : node.agent.master.isDue (hw.now node.hardware) = true
  · have hpermits : watch.Permits (node.pollCall hw) := fun hreport =>
      absurd hreport Bool.false_ne_true
    rw [advance_of_due hdue]
    -- A poll begun is a call of the caller, and from then on a report is owed.
    refine ⟨watch.call (node.pollCall hw), .call _ hwatched hpermits, ?_, ?_⟩
    · rw [Watch.call, ← hmaster]
      exact (congrArg Prod.fst ((Master.poll_of_due hdue _).2 _)).symm
    · rw [Watch.call, ← hmaster, Node.pollCall, (Master.poll_of_due hdue _).1]
      exact Bool.or_true _
  · rw [advance_of_not_due hdue]
    exact ⟨watch, hwatched, hmaster, howes⟩

/-- Sending pays that debt, whether or not it worked. -/
theorem tracks_transmit {node : Node σ} {request : List UInt8} {queue : EventQueue}
    {log : List Deed} (hw : Hardware σ) (h : Tracks timing ⟨node, .begun request queue, log⟩) :
    Tracks timing ((⟨node, .begun request queue, log⟩ : Exchange σ).advance hw) := by
  rcases h with ⟨watch, hwatched, hmaster, howes⟩
  simp only at hmaster
  have hstep := Watch.inStep_of_watched hwatched
  have hsettled := hstep.course.settled
  rw [← hmaster] at hsettled
  -- The request is being sent, so the report on it is what the caller owes.
  have howes' : (Watch.on node.agent.master).owes = true := by
    rw [Watch.on, hmaster, ← hstep.owes_eq, howes]
    rfl
  have hworks := Node.transmit_works hw (Watch.inStep_on hsettled) howes' node rfl request
  have htransmit := congrArg Prod.fst (hworks.does queue)
  refine ⟨watch.call (hw.reportCall request node.hardware), .call _ hwatched fun _ => howes, ?_, ?_⟩
  · rw [Watch.call, ← hmaster]
    exact congrArg (fun node : Node σ => node.agent.master) htransmit
  · rw [Watch.call, Node.isReport_reportCall]
    rfl

theorem tracks_advance (hw : Hardware σ) (h : exchange.Tracks timing) :
    (exchange.advance hw).Tracks timing := by
  rcases exchange with ⟨node, stage, log⟩
  cases stage with
  | resting => exact tracks_listen hw h .empty
  | listened queue => exact tracks_begin hw h
  | begun request queue => exact tracks_transmit hw h
  | served codes events => cases codes <;> exact h
  | shown wakes => exact h

/-- The host and the hardware do not concern the master. -/
theorem tracks_move (hw : Hardware σ) (h : exchange.Tracks timing) (move : Move σ) :
    (exchange.move hw move).Tracks timing := by
  cases move with
  | post code => exact h
  | cancel => exact h
  | takeRequest => exact h
  | drift change => exact h
  | advance => exact tracks_advance hw h

/-- Hence what is known of watched masters is known of one that an exchange
    leads to. -/
theorem tracks_run (hw : Hardware σ) (h : exchange.Tracks timing) (moves : List (Move σ)) :
    (exchange.run hw moves).Tracks timing :=
  run_keeps (Tracks timing) (fun _ move hbefore => tracks_move hw hbefore move) h moves

end Exchange

end DoorBus
